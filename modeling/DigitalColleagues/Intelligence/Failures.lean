import DigitalColleagues.Application.Boundaries
import DigitalColleagues.Intelligence.Replies
import DigitalColleagues.Runtime.System

/-!
# What leaves an adapter

Which exceptions leave the two adapters and what becomes of the claimed
generation. Every check of a reply is translated; the constructors of the
proposal and the UTF-8 encodings behind its digests are not.

## Main definitions

- `RawProposal.Constructible` — what the constructors accept of a reply
- `Mandate.FirstEffectStable` — what they accept of the first boundary
- `Untroubled`, `Writable` — the replies whose decision is made, and written
-/

namespace DigitalColleagues

-- ════════════════════════════════════════════════════════════════════════
-- The constructors
-- ════════════════════════════════════════════════════════════════════════

theorem requirePyStableId_eq_ok {value : PyString} {field : String} {i : StableId} :
    requirePyStableId value field = .ok i ↔ PyString.ofString i.val = value := by
  unfold requirePyStableId
  constructor
  · intro h
    split at h
    · rename_i text htext
      split at h
      · obtain rfl := Except.ok.inj h
        exact PyString.encode_eq_some.mp htext
      · exact absurd h (by simp)
    · exact absurd h (by simp)
  · rintro rfl
    rw [PyString.encode_ofString]
    show (if h : isStableId i.val = true then _ else _ : Except Raised StableId) = _
    rw [dif_pos i.2]

theorem requirePyText_eq_ok {value text : PyString} {field : String} {maximum : ℕ} :
    requirePyText value field maximum = .ok text ↔
      Bounded value maximum ∧ PyString.strip value = text := by
  simp only [requirePyText, exceptBind_eq_ok, ensure_eq_ok, exists_const, exceptPure_eq_ok, Bounded]

theorem utf8_eq_ok {α : Type} {encoded : Option α} {a : α} :
    utf8 encoded = .ok a ↔ encoded = some a := by
  cases encoded <;> simp [utf8]

/-- The adapter returned, or raised a translated failure. -/
def Contained {α : Type} (x : Except Raised α) : Prop :=
  ∀ raised, x = .error raised → ∃ failure, raised = .adapter failure

/-- Nothing that is raised is a translated failure. -/
def Untranslated {α : Type} (x : Except Raised α) : Prop :=
  ∀ failure, x ≠ .error (.adapter failure)

theorem Untranslated.bind {α β : Type} {x : Except Raised α} {f : α → Except Raised β}
    (hx : Untranslated x) (hf : ∀ a, Untranslated (f a)) : Untranslated (x >>= f) := by
  intro failure h
  cases x with
  | error raised =>
    obtain rfl : raised = .adapter failure := Except.error.inj h
    exact hx failure rfl
  | ok a => exact hf a failure h

theorem Untranslated.contained_iff {α : Type} {x : Except Raised α} (h : Untranslated x) :
    Contained x ↔ ∃ a, x = .ok a := by
  cases x with
  | error raised =>
    constructor
    · intro hcontained
      obtain ⟨failure, rfl⟩ := hcontained raised rfl
      exact absurd rfl (h failure)
    · rintro ⟨a, ha⟩
      exact absurd ha (by simp)
  | ok a => exact ⟨fun _ => ⟨a, rfl⟩, fun _ _ hraised => absurd hraised (by simp)⟩

theorem untranslated_ensure {c : Prop} [Decidable c] {raised : Raised}
    (h : ∀ failure, raised ≠ .adapter failure) : Untranslated (ensure c raised) := by
  intro failure hraised
  unfold ensure at hraised
  split at hraised
  · exact absurd hraised (by simp)
  · exact h failure (Except.error.inj hraised)

theorem untranslated_pure {α : Type} (a : α) : Untranslated (pure a) :=
  fun _ h => absurd h (by simp [pure, Except.pure])

theorem untranslated_requirePyStableId (value : PyString) (field : String) :
    Untranslated (requirePyStableId value field) := by
  intro failure h
  unfold requirePyStableId at h
  split at h
  · split at h <;> exact absurd h (by simp)
  · exact absurd h (by simp)

theorem untranslated_firstItem {α : Type} (items : List α) : Untranslated (firstItem items) := by
  intro failure h
  cases items <;> exact absurd h (by simp [firstItem])

theorem untranslated_utf8 {α : Type} (encoded : Option α) : Untranslated (utf8 encoded) := by
  intro failure h
  cases encoded <;> exact absurd h (by simp [utf8])

/-- The constructors of a proposal translate nothing. -/
theorem untranslated_build (digests : ProposalDigests) (request : IntelligenceRequest)
    (parts : ProposalParts) : Untranslated (parts.build digests request) := by
  unfold ProposalParts.build
  refine (untranslated_requirePyStableId _ _).bind fun kind => ?_
  refine Untranslated.bind ?_ fun target => ?_
  · exact (untranslated_ensure (by simp)).bind fun _ => untranslated_pure _
  refine (untranslated_requirePyStableId _ _).bind fun action => ?_
  refine (untranslated_ensure (by simp)).bind fun _ => ?_
  refine (untranslated_ensure (by simp)).bind fun _ => ?_
  refine (untranslated_utf8 _).bind fun payload => ?_
  refine (untranslated_utf8 _).bind fun text => ?_
  exact (untranslated_utf8 _).bind fun safeProjection => untranslated_pure _

theorem build_eq_ok {digests : ProposalDigests} {request : IntelligenceRequest}
    {parts : ProposalParts} {proposal : EffectProposal} :
    parts.build digests request = .ok proposal ↔
      ∃ (kind action : StableId) (target : String) (payload safeProjection : FrozenJsonObject),
        PyString.ofString kind.val = parts.destinationKind ∧ Bounded parts.target 512 ∧
        PyString.ofString action.val = parts.action ∧ parts.payload ≠ [] ∧
        parts.safeProjection ≠ [] ∧ WireJson.encodeObject parts.payload = some payload ∧
        PyString.ofString target = PyString.strip parts.target ∧
        WireJson.encodeObject parts.safeProjection = some safeProjection ∧
        proposal = request.proposal digests parts.boundary ⟨kind, target⟩ action payload
          safeProjection := by
  simp only [ProposalParts.build, exceptBind_eq_ok, requirePyStableId_eq_ok, requirePyText_eq_ok,
    ensure_eq_ok, exists_const, utf8_eq_ok, exceptPure_eq_ok, PyString.encode_eq_some]
  constructor
  · rintro ⟨kind, hkind, _, ⟨hbounded, rfl⟩, action, haction, hpayload_ne, hprojection_ne, payload,
      hpayload, target, htarget, projection, hprojection, rfl⟩
    exact ⟨kind, action, target, payload, projection, hkind, hbounded, haction, hpayload_ne,
      hprojection_ne, hpayload, htarget, hprojection, rfl⟩
  · rintro ⟨kind, action, target, payload, projection, hkind, hbounded, haction, hpayload_ne,
      hprojection_ne, hpayload, htarget, hprojection, rfl⟩
    exact ⟨kind, hkind, _, ⟨hbounded, rfl⟩, action, haction, hpayload_ne, hprojection_ne, payload,
      hpayload, target, htarget, projection, hprojection, rfl⟩

-- ════════════════════════════════════════════════════════════════════════
-- Proposals in a reply
-- ════════════════════════════════════════════════════════════════════════

/-- The stripped destination kind and action are stable identifiers, and no lone
    surrogate occurs in the target, the payload or the safe projection. -/
structure RawProposal.Constructible (raw : RawProposal) : Prop where
  destinationKind : ∃ kind : StableId, .ofString kind.val = PyString.strip raw.destinationKind
  action : ∃ action : StableId, .ofString action.val = PyString.strip raw.action
  target : (PyString.encode raw.target).isSome
  payload : (WireJson.encodeEntries raw.payload).isSome
  safeProjection : (WireJson.encodeEntries raw.safeProjection).isSome

theorem freezeEntries_ne_nil {entries stripped : List (PyString × WireJson)}
    (h : WireJson.freezeEntries entries = .ok stripped) (hne : entries ≠ []) : stripped ≠ [] := by
  cases entries with
  | nil => exact absurd rfl hne
  | cons e entries =>
    simp only [WireJson.freezeEntries, bind_eq_ok, pure_eq_ok] at h
    obtain ⟨_, _, _, _, rest, _, rfl⟩ := h
    exact List.cons_ne_nil _ _

theorem fromMapping_ne_nil {entries frozen : List (PyString × WireJson)}
    (h : WireJson.fromMapping entries = .ok frozen) (hne : entries ≠ []) : frozen ≠ [] := by
  obtain ⟨stripped, hstripped, hperm, _⟩ := WireJson.fromMapping_eq_ok h
  intro hnil
  rw [hnil] at hperm
  exact freezeEntries_ne_nil hstripped hne hperm.symm.eq_nil

/-- A well-formed proposal is constructed exactly when it is constructible. -/
theorem RawProposal.build_parts_iff (digests : ProposalDigests) (request : IntelligenceRequest)
    {raw : RawProposal} (boundary : EffectBoundary)
    {payload safeProjection : List (PyString × WireJson)} (h : raw.WellFormed)
    (hpayload : WireJson.fromMapping raw.payload = .ok payload)
    (hprojection : WireJson.fromMapping raw.safeProjection = .ok safeProjection) :
    (∃ proposal, (raw.parts boundary payload safeProjection).build digests request =
      .ok proposal) ↔ raw.Constructible := by
  constructor
  · rintro ⟨proposal, hbuild⟩
    obtain ⟨kind, action, target, object, projection, hkind, _, haction, _, _, hobject, htarget,
      hprojectionObject, _⟩ := build_eq_ok.mp hbuild
    refine ⟨⟨kind, hkind⟩, ⟨action, haction⟩, ?_, ?_, ?_⟩
    · rw [← PyString.encode_strip_isSome, ← PyString.encode_strip_isSome]
      exact Option.isSome_iff_exists.mpr ⟨target, PyString.encode_eq_some.mpr htarget⟩
    · rw [← WireJson.encodeObject_isSome hpayload]
      exact Option.isSome_iff_exists.mpr ⟨object, hobject⟩
    · rw [← WireJson.encodeObject_isSome hprojection]
      exact Option.isSome_iff_exists.mpr ⟨projection, hprojectionObject⟩
  · intro hraw
    obtain ⟨kind, hkind⟩ := hraw.destinationKind
    obtain ⟨action, haction⟩ := hraw.action
    obtain ⟨target, htarget⟩ : ∃ target, PyString.ofString target = PyString.strip
        (PyString.strip raw.target) := by
      have hsome := hraw.target
      rw [← PyString.encode_strip_isSome] at hsome
      obtain ⟨target, htarget⟩ := Option.isSome_iff_exists.mp hsome
      exact ⟨target, by rw [PyString.strip_strip]; exact PyString.encode_eq_some.mp htarget⟩
    obtain ⟨object, hobject⟩ := Option.isSome_iff_exists.mp
      ((WireJson.encodeObject_isSome hpayload).trans hraw.payload)
    obtain ⟨projection, hprojectionObject⟩ := Option.isSome_iff_exists.mp
      ((WireJson.encodeObject_isSome hprojection).trans hraw.safeProjection)
    have hbounded : Bounded (PyString.strip raw.target) 512 := by
      rw [Bounded, PyString.strip_strip]
      exact h.target
    exact ⟨_, build_eq_ok.mpr ⟨kind, action, target, object, projection, hkind, hbounded, haction,
      fromMapping_ne_nil hpayload h.payload_ne, fromMapping_ne_nil hprojection h.safeProjection_ne,
      hobject, htarget, hprojectionObject, rfl⟩⟩

/-- Every proposal that the response makes is constructible. -/
def Untroubled (request : IntelligenceRequest)
    (response : Except AdapterFailure HttpJsonResponse) : Prop :=
  ∀ r, response = .ok r → ∀ raw boundary, Proposes request r raw boundary → raw.Constructible

/-- No lone surrogate occurs in the rationale of the response. -/
def Writable (request : IntelligenceRequest)
    (response : Except AdapterFailure HttpJsonResponse) : Prop :=
  ∀ r, response = .ok r →
    (∀ raw boundary, Proposes request r raw boundary → (PyString.encode raw.rationale).isSome) ∧
    ∀ outcome rationale, Answers request r outcome rationale →
      (PyString.encode rationale).isSome

namespace HttpJsonIntelligence

variable {digests : ProposalDigests} {retries : ℕ} {request : IntelligenceRequest}
  {transport : ℕ → Except AdapterFailure HttpJsonResponse}

variable (digests) in
theorem contained_iff : Contained (decide digests retries request transport) ↔
    Untroubled request (submit transport retries 0) := by
  constructor
  · intro h r hresponse raw boundary hproposes
    obtain ⟨payload, hpayload⟩ := hproposes.wellFormed.payload
    obtain ⟨safeProjection, hprojection⟩ := hproposes.wellFormed.safeProjection
    have hread : read retries request transport =
        .ok (.proposal (raw.parts boundary payload safeProjection)) :=
      read_eq_proposal.mpr ⟨r, raw, boundary, payload, safeProjection, hresponse, hproposes,
        hpayload, hprojection, rfl⟩
    rw [← raw.build_parts_iff digests request boundary hproposes.wellFormed hpayload hprojection, ← (untranslated_build digests request _).contained_iff]
    intro raised hraised
    refine h raised ?_
    rw [decide, hread]
    show (_ >>= _ : Except Raised ReturnedDecision) = _
    rw [hraised]
    rfl
  · intro h raised hraised
    rw [decide] at hraised
    split at hraised
    · rename_i reply hread
      cases reply with
      | other outcome rationale hother => exact absurd hraised (by simp [answer])
      | proposal parts =>
        obtain ⟨r, raw, boundary, payload, safeProjection, hresponse, hproposes, hpayload,
          hprojection, rfl⟩ := read_eq_proposal.mp hread
        obtain ⟨proposal, hbuild⟩ := (raw.build_parts_iff digests request boundary
          hproposes.wellFormed hpayload hprojection).mpr
            (h r hresponse raw boundary hproposes)
        rw [answer, hbuild] at hraised
        exact absurd hraised (by simp [bind, Except.bind, pure, Except.pure])
    · rename_i failure _
      exact ⟨failure, (Except.error.inj hraised).symm⟩

/-- The rationale of a reply that was read. -/
def rationale : Reply → PyString
  | .proposal parts => parts.rationale
  | .other _ rationale _ => rationale

theorem writable_iff : Writable request (submit transport retries 0) ↔
    ∀ reply, read retries request transport = .ok reply →
      (PyString.encode (rationale reply)).isSome := by
  constructor
  · intro h reply hread
    cases reply with
    | proposal parts =>
      obtain ⟨r, raw, boundary, payload, safeProjection, hresponse, hproposes, _, _, rfl⟩ :=
        read_eq_proposal.mp hread
      show (PyString.encode (PyString.strip raw.rationale)).isSome = true
      rw [PyString.encode_strip_isSome]
      exact (h r hresponse).1 raw boundary hproposes
    | other outcome text hother =>
      obtain ⟨r, raw, hresponse, hanswers, rfl⟩ := read_eq_other.mp hread
      show (PyString.encode (PyString.strip raw)).isSome = true
      rw [PyString.encode_strip_isSome]
      exact (h r hresponse).2 outcome raw hanswers
  · intro h r hresponse
    constructor
    · intro raw boundary hproposes
      obtain ⟨payload, hpayload⟩ := hproposes.wellFormed.payload
      obtain ⟨safeProjection, hprojection⟩ := hproposes.wellFormed.safeProjection
      rw [← PyString.encode_strip_isSome]
      exact h _ (read_eq_proposal.mpr ⟨r, raw, boundary, payload, safeProjection, hresponse,
        hproposes, hpayload, hprojection, rfl⟩)
    · intro outcome raw hanswers
      rw [← PyString.encode_strip_isSome]
      exact h _ (read_eq_other (h := hanswers.no_proposal).mpr ⟨r, raw, hresponse, hanswers, rfl⟩)

theorem answer_eq_ok {reply : Reply} {d : ReturnedDecision}
    (h : answer digests request reply = .ok d) : d.rationale = rationale reply := by
  cases reply with
  | proposal parts =>
    simp only [answer, exceptBind_eq_ok, exceptPure_eq_ok] at h
    obtain ⟨proposal, _, rfl⟩ := h
    rfl
  | other outcome text hother =>
    obtain rfl := Except.ok.inj h
    rfl

theorem untranslated_answer (reply : Reply) : Untranslated (answer digests request reply) := by
  cases reply with
  | proposal parts =>
    exact (untranslated_build digests request parts).bind fun proposal => untranslated_pure _
  | other outcome text hother => exact fun _ h => absurd h (by simp [answer])

/-- What `decide` raises is translated, and what it returns can be written. -/
theorem handled_iff :
    ((∃ d, decide digests retries request transport = .ok d ∧
        (PyString.encode d.rationale).isSome) ∨
      ∃ failure, decide digests retries request transport = .error (.adapter failure)) ↔
    Untroubled request (submit transport retries 0) ∧
      Writable request (submit transport retries 0) := by
  rw [← contained_iff digests, writable_iff]
  constructor
  · intro h
    constructor
    · intro raised hraised
      rcases h with ⟨d, hd, _⟩ | ⟨failure, hfailure⟩
      · exact absurd (hd.symm.trans hraised) (by simp)
      · exact ⟨failure, Except.error.inj (hraised.symm.trans hfailure)⟩
    · intro reply hread
      rw [decide, hread] at h
      rcases h with ⟨d, hd, hrationale⟩ | ⟨failure, hfailure⟩
      · rwa [answer_eq_ok hd] at hrationale
      · exact absurd hfailure (untranslated_answer reply failure)
  · rintro ⟨hcontained, hwritable⟩
    cases hdecide : decide digests retries request transport with
    | error raised =>
      obtain ⟨failure, rfl⟩ := hcontained raised hdecide
      exact .inr ⟨failure, rfl⟩
    | ok d =>
      refine .inl ⟨d, rfl, ?_⟩
      rw [decide] at hdecide
      split at hdecide
      · rename_i reply hread
        rw [answer_eq_ok hdecide]
        exact hwritable reply hread
      · exact absurd hdecide (by simp)

end HttpJsonIntelligence

-- ════════════════════════════════════════════════════════════════════════
-- The deterministic adapter
-- ════════════════════════════════════════════════════════════════════════

/-- The first destination kind and the first action of the first boundary are stable
    identifiers. -/
def Mandate.FirstEffectStable (mandate : Mandate) : Prop :=
  ∃ boundary destinationKind action, mandate.effectBoundaries.head? = some boundary ∧
    boundary.allowedDestinationKinds.head? = some destinationKind ∧
    boundary.allowedActions.head? = some action ∧
    isStableId destinationKind = true ∧ isStableId action = true

theorem firstItem_eq_ok {α : Type} {items : List α} {a : α} :
    firstItem items = .ok a ↔ items.head? = some a := by
  cases items <;> simp [firstItem]

theorem exists_ofString_eq {text : String} :
    (∃ i : StableId, PyString.ofString i.val = PyString.ofString text) ↔ isStableId text = true := by
  constructor
  · rintro ⟨i, hi⟩
    rw [← PyString.ofString_injective hi]
    exact i.2
  · intro h
    exact ⟨⟨text, h⟩, rfl⟩

/-- The two objects of the deterministic adapter are proper text. -/
theorem encodeObject_deterministicParts (request : IntelligenceRequest) (boundary : EffectBoundary)
    (destinationKind action : String) :
    let parts := deterministicParts request boundary destinationKind action
    (∃ o, WireJson.encodeObject parts.payload = some o) ∧
      ∃ o, WireJson.encodeObject parts.safeProjection = some o := by
  constructor
  · refine ⟨_, WireJson.encodeObject_eq_some (show WireJson.encodeEntries _ = some [("body",
      .str "Synthetic deterministic work update.")] from ?_) (by simp)⟩
    simp [deterministicParts, WireJson.encodeEntries, WireJson.encode]
  · cases hwork : request.agendaItem.workId with
    | none =>
      refine ⟨_, WireJson.encodeObject_eq_some (show WireJson.encodeEntries _ = some [("content_class",
        .str "synthetic_update"), ("work_id", .null)] from ?_)
        (show List.Pairwise (· < ·) ["content_class", "work_id"] by decide)⟩
      simp [deterministicParts, WireJson.encodeEntries, WireJson.encode, hwork]
    | some workId =>
      refine ⟨_, WireJson.encodeObject_eq_some (show WireJson.encodeEntries _ = some [("content_class",
        .str "synthetic_update"), ("work_id", .str workId)] from ?_)
        (show List.Pairwise (· < ·) ["content_class", "work_id"] by decide)⟩
      simp [deterministicParts, WireJson.encodeEntries, WireJson.encode, hwork]

theorem bounded_syntheticTarget : Bounded (.ofString "synthetic-target") 512 ∧
    PyString.ofString "synthetic-target" = PyString.strip (.ofString "synthetic-target") := by
  unfold Bounded
  decide +kernel

theorem build_deterministicParts_iff {digests : ProposalDigests} {request : IntelligenceRequest}
    {boundary : EffectBoundary} {destinationKind action : String} :
    (∃ proposal, (deterministicParts request boundary destinationKind action).build digests request =
      .ok proposal) ↔ isStableId destinationKind = true ∧ isStableId action = true := by
  constructor
  · rintro ⟨proposal, hbuild⟩
    obtain ⟨kind, action', _, _, _, hkind, _, haction, _⟩ := build_eq_ok.mp hbuild
    exact ⟨exists_ofString_eq.mp ⟨kind, hkind⟩, exists_ofString_eq.mp ⟨action', haction⟩⟩
  · rintro ⟨hkind, haction⟩
    obtain ⟨⟨payload, hpayload⟩, ⟨projection, hprojection⟩⟩ :=
      encodeObject_deterministicParts request boundary destinationKind action
    exact ⟨_, build_eq_ok.mpr ⟨⟨destinationKind, hkind⟩, ⟨action, haction⟩, "synthetic-target",
      payload, projection, rfl, bounded_syntheticTarget.1, rfl, List.cons_ne_nil _ _,
      List.cons_ne_nil _ _, hpayload, bounded_syntheticTarget.2, hprojection, rfl⟩⟩

/-- The deterministic adapter decides exactly when the constructors accept its proposal. -/
theorem DeterministicIntelligence.decide_isOk_iff (digests : ProposalDigests)
    {request : IntelligenceRequest} (hmodel : request.modelPrincipal.kind = .model) :
    (∃ d, DeterministicIntelligence.decide digests request = .ok d) ↔
      request.mandate.FirstEffectStable := by
  simp only [DeterministicIntelligence.decide, exceptBind_eq_ok, ensure_eq_ok, exists_const,
    firstItem_eq_ok, exceptPure_eq_ok, Mandate.FirstEffectStable]
  constructor
  · rintro ⟨d, _, boundary, hboundary, kind, hkind, action, haction, proposal, hbuild, _⟩
    exact ⟨boundary, kind, action, hboundary, hkind, haction,
      build_deterministicParts_iff.mp ⟨proposal, hbuild⟩⟩
  · rintro ⟨boundary, kind, action, hboundary, hkind, haction, hstable⟩
    obtain ⟨proposal, hbuild⟩ := build_deterministicParts_iff.mpr hstable
    exact ⟨_, hmodel, boundary, hboundary, kind, hkind, action, haction, proposal, hbuild, rfl⟩

/-- What the deterministic adapter raises is never translated, and its rationale is text. -/
theorem DeterministicIntelligence.handled_iff {digests : ProposalDigests}
    {request : IntelligenceRequest} (hmodel : request.modelPrincipal.kind = .model) :
    ((∃ d, DeterministicIntelligence.decide digests request = .ok d ∧
        (PyString.encode d.rationale).isSome) ∨
      ∃ failure, DeterministicIntelligence.decide digests request = .error (.adapter failure)) ↔
    request.mandate.FirstEffectStable := by
  rw [← DeterministicIntelligence.decide_isOk_iff digests hmodel]
  constructor
  · rintro (⟨d, hd, _⟩ | ⟨failure, hfailure⟩)
    · exact ⟨d, hd⟩
    · refine absurd hfailure ?_
      refine Untranslated.bind ?_ ?_ failure
      · exact untranslated_ensure (by simp)
      · intro _
        refine Untranslated.bind (untranslated_firstItem _) fun boundary => ?_
        refine Untranslated.bind (untranslated_firstItem _) fun destinationKind => ?_
        refine Untranslated.bind (untranslated_firstItem _) fun action => ?_
        exact (untranslated_build _ _ _).bind fun _ => untranslated_pure _
  · rintro ⟨d, hd⟩
    refine .inl ⟨d, hd, ?_⟩
    simp only [DeterministicIntelligence.decide, exceptBind_eq_ok, exceptPure_eq_ok] at hd
    obtain ⟨_, _, _, _, _, _, _, _, _, _, rfl⟩ := hd
    exact Option.isSome_iff_exists.mpr ⟨_, PyString.encode_ofString _⟩

-- ════════════════════════════════════════════════════════════════════════
-- The wake
-- ════════════════════════════════════════════════════════════════════════

/-- The wake commits a decision for the claimed generation. -/
def WakeHandling.Commits (handling : WakeHandling) : Prop :=
  ∃ semantic, handling = .committed semantic

theorem WakeService.handle_commits_iff {safeDigest : AdapterFailureCategory → String → Digest}
    {request : IntelligenceRequest} {decided : Except Raised ReturnedDecision} :
    (WakeService.handle safeDigest request decided).Commits ↔
      request.deterministicNoop.isSome ∨
      ((∃ d, decided = .ok d ∧ (PyString.encode d.rationale).isSome) ∨
        ∃ failure, decided = .error (.adapter failure)) := by
  unfold WakeService.handle WakeHandling.Commits
  cases request.deterministicNoop with
  | some semantic => simp
  | none =>
    cases decided with
    | error raised => cases raised <;> simp
    | ok d =>
      have hstored : d.toSemanticDecision.isSome = (PyString.encode d.rationale).isSome := by
        unfold ReturnedDecision.toSemanticDecision
        cases PyString.encode d.rationale <;> rfl
      cases hsemantic : d.toSemanticDecision with
      | none => simp [← hstored, hsemantic]
      | some semantic => simp [← hstored, hsemantic]

/-- Constant digests, for concrete replies. -/
def sampleDigests : ProposalDigests := ⟨fun _ => 0, fun _ => 0⟩

/-- A text in a response. -/
def wireText (text : String) : WireJson := .str (.ofString text)

/-- A field of a response. -/
def wireField (field : String) (value : WireJson) : PyString × WireJson := (.ofString field, value)

/-- A response that proposes the sample effect with this target and this payload. -/
def sampleResponse (target : PyString) (payload : List (PyString × WireJson)) :
    HttpJsonResponse where
  status := 200
  contentType := "application/json"
  body := some (.object
    [wireField "protocol_version" (wireText "dc-http-json-v1"),
      wireField "result_kind" (wireText "proposal"),
      wireField "result" (.object
        [wireField "rationale" (wireText "answer"),
          wireField "effect_kind" (wireText "reference_message"),
          wireField "destination"
            (.object [wireField "kind" (wireText "channel"), wireField "target" (.str target)]),
          wireField "action" (wireText "send"),
          wireField "payload" (.object payload),
          wireField "safe_projection" (.object [wireField "work" .null])])])

/-- A mandate of the builder whose one destination kind is free text. -/
def freeTextMandate : Mandate :=
  { sampleMandate with
    effectBoundaries := [{
      boundaryId := stableId "boundary-1"
      effectKind := .referenceMessage
      allowedDestinationKinds := ["Email inbox"]
      allowedActions := ["send"]
      constraints := offline
      humanApprovalRequired := true }]
    effectBoundaries_unique := by decide }

/-- What was raised. -/
def raised? {α : Type} (x : Except Raised α) : Option Raised :=
  match x with
  | .ok _ => none
  | .error raised => some raised

/-- What a wake raised again. -/
def WakeHandling.raised? (handling : WakeHandling) : Option Raised :=
  match handling with
  | .committed _ => none
  | .released raised => some raised

end DigitalColleagues
