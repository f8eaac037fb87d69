import DigitalColleagues.Application.Boundaries
import DigitalColleagues.Core.AgentPackage
import DigitalColleagues.Packages.CanonicalJson

/-!
# The package format

Reading a package from a JSON document, and the document a package is written as.
The documents that are read as a package are exactly those that have the canonical
value of what the package is written as.

## Main definitions

- `workflowStep`, `agentPackageFromMapping` — the readers
- `WorkflowStep.toData`, `AgentPackage.toData` — the documents
- `AgentPackage.Valid` — what the constructors have checked

## Main results

- `agentPackageFromMapping_exact` — which documents are read as which package
-/

namespace DigitalColleagues

-- ════════════════════════════════════════════════════════════════════════
-- Texts
-- ════════════════════════════════════════════════════════════════════════

/-- The texts that `_string` accepts. -/
def ExactText (s : PyString) (maximum : ℕ) : Prop :=
  (PyString.strip s ≠ [] ∧ s = PyString.strip s) ∧ s.length ≤ maximum

instance (s : PyString) (maximum : ℕ) : Decidable (ExactText s maximum) := by
  unfold ExactText
  infer_instance

/-- The failure of `_string` for a text that it does not accept. -/
def stringFailure (s : PyString) (field : String) : Failure :=
  if PyString.strip s ≠ [] ∧ s = PyString.strip s then
    .coreInvariant (field ++ " exceeds its fixed bound")
  else .coreInvariant (field ++ " must be an exact non-empty string")

/-- `_string`. -/
def packageString (value : WireJson) (field : String) (maximum : ℕ) : Outcome PyString :=
  match value with
  | .str s => if ExactText s maximum then .ok s else .error (stringFailure s field)
  | _ => .error (.coreInvariant (field ++ " must be an exact non-empty string"))

/-- `_mapping`. -/
def packageMapping (value : WireJson) (field : String) (keys : List String) :
    Outcome (List (PyString × WireJson)) :=
  match value with
  | .object entries =>
    if hasFields entries keys then .ok entries
    else .error (.coreInvariant (field ++ " has unknown or missing fields"))
  | _ => .error (.coreInvariant (field ++ " must be an object"))

/-- `_sequence`. -/
def packageSequence (value : WireJson) (field : String) : Outcome (List WireJson) :=
  match value with
  | .array items => .ok items
  | _ => .error (.coreInvariant (field ++ " must be an array"))

/-- `require_stable_id`, of a text as it arrives. -/
def requireStableText (s : PyString) (field : String) : Outcome StableId :=
  match s.encode with
  | some text => requireStableId text field
  | none => .error (.coreInvariant (field ++ " must be an explicit stable string ID"))

theorem packageString_eq_ok {v : WireJson} {field : String} {maximum : ℕ} {s : PyString} :
    packageString v field maximum = .ok s ↔ v = .str s ∧ ExactText s maximum := by
  cases v with
  | str t =>
    by_cases ht : ExactText t maximum
    · simp only [packageString, if_pos ht, Except.ok.injEq, WireJson.str.injEq]
      exact ⟨fun h => ⟨h, h ▸ ht⟩, fun h => h.1⟩
    · simp only [packageString, if_neg ht, reduceCtorEq, WireJson.str.injEq, false_iff, not_and]
      exact fun h => h ▸ ht
  | _ => simp [packageString]

theorem packageMapping_eq_ok {v : WireJson} {field : String} {keys : List String}
    {entries : List (PyString × WireJson)} :
    packageMapping v field keys = .ok entries ↔
      v = .object entries ∧ hasFields entries keys = true := by
  cases v with
  | object es =>
    by_cases hkeys : hasFields es keys = true
    · simp only [packageMapping, if_pos hkeys, Except.ok.injEq, WireJson.object.injEq]
      exact ⟨fun h => ⟨h, h ▸ hkeys⟩, fun h => h.1⟩
    · simp only [packageMapping, if_neg hkeys, reduceCtorEq, WireJson.object.injEq, false_iff,
        not_and]
      exact fun h => h ▸ hkeys
  | _ => simp [packageMapping]

theorem packageSequence_eq_ok {v : WireJson} {field : String} {items : List WireJson} :
    packageSequence v field = .ok items ↔ v = .array items := by
  cases v <;> simp [packageSequence]

theorem requireStableText_eq_ok {s : PyString} {field : String} {id : StableId} :
    requireStableText s field = .ok id ↔ s = .ofString id.val := by
  unfold requireStableText
  cases hs : s.encode with
  | none =>
    refine iff_of_false (by simp) ?_
    rintro rfl
    exact absurd hs (by simp)
  | some text =>
    have htext := PyString.encode_eq_some.mp hs
    subst htext
    dsimp only
    unfold requireStableId
    split
    · next hid =>
      rw [Except.ok.injEq, PyString.ofString_injective.eq_iff]
      exact ⟨fun h => h ▸ rfl, fun h => Subtype.ext h⟩
    · next hid =>
      refine iff_of_false (by simp) fun h => hid ?_
      rw [PyString.ofString_injective h]
      exact id.property

/-- A text of visible ASCII characters is accepted as it is. -/
theorem exactText_of_visible {text : String} {maximum : ℕ} (hne : text.toList ≠ [])
    (hvisible : ∀ c ∈ text.toList, 0x21 ≤ c.toNat ∧ c.toNat ≤ 0x7e)
    (hlength : text.toList.length ≤ maximum) : ExactText (.ofString text) maximum := by
  have hspace : ∀ c ∈ PyString.ofString text, c.isSpace = false := by
    intro c hc
    obtain ⟨d, hd, rfl⟩ := List.mem_map.mp hc
    have hbounds := hvisible d hd
    have hval : (CodePoint.ofChar d).val = d.toNat := rfl
    simp only [CodePoint.isSpace, hval, decide_eq_false_iff_not, List.mem_cons, List.not_mem_nil,
      or_false]
    omega
  have hdrop : ∀ s : PyString, (∀ c ∈ s, c.isSpace = false) →
      s.dropWhile CodePoint.isSpace = s := by
    intro s hs
    cases s with
    | nil => rfl
    | cons c s => rw [List.dropWhile_cons, hs c (List.mem_cons_self ..)]; rfl
  have hstrip : PyString.strip (.ofString text) = .ofString text := by
    rw [PyString.strip, hdrop _ hspace, hdrop _ fun c hc => hspace c (List.mem_reverse.mp hc),
      List.reverse_reverse]
  refine ⟨⟨?_, hstrip.symm⟩, ?_⟩
  · rw [hstrip]
    exact fun h => hne (List.map_eq_nil_iff.mp h)
  · rw [PyString.ofString, List.length_map]
    exact hlength

theorem visible_of_isIdPart {c : Char} (h : isIdPart c = true) :
    0x21 ≤ c.toNat ∧ c.toNat ≤ 0x7e := by
  simp only [isIdPart, isIdStart, Bool.or_eq_true, Bool.and_eq_true, decide_eq_true_eq,
    beq_iff_eq, Char.le_def, UInt32.le_iff_toNat_le] at h
  have hval : c.val.toNat = c.toNat := rfl
  have ha : 'a'.val.toNat = 97 := rfl
  have hz : 'z'.val.toNat = 122 := rfl
  have hzero : '0'.val.toNat = 48 := rfl
  have hnine : '9'.val.toNat = 57 := rfl
  obtain (((((h | h) | rfl) | rfl) | rfl) | rfl) := h
  · omega
  · omega
  all_goals decide

/-- An identifier is accepted by `_string` with the bound that the package format has. -/
theorem exactText_stableId (id : StableId) : ExactText (.ofString id.val) 128 := by
  have hid := id.property
  unfold isStableId at hid
  cases htext : id.val.toList with
  | nil => rw [htext] at hid; exact absurd hid (by simp)
  | cons c cs =>
    rw [htext] at hid
    simp only [Bool.and_eq_true, List.all_eq_true, decide_eq_true_eq] at hid
    refine exactText_of_visible (by rw [htext]; simp) ?_ ?_
    · rw [htext]
      refine List.forall_mem_cons.mpr ⟨visible_of_isIdPart ?_, fun d hd =>
        visible_of_isIdPart (hid.1.2 d hd)⟩
      rw [isIdPart, hid.1.1]
      rfl
    · rw [htext, List.length_cons]
      omega

-- ════════════════════════════════════════════════════════════════════════
-- Digests and versions
-- ════════════════════════════════════════════════════════════════════════

/-- The value of one of `0-9a-f`. -/
def lowerHex? (c : Char) : Option ℕ := (List.range 16).find? fun n => Nat.digitChar n = c

/-- The number that digits denote, the most significant first. -/
def hexNumber (digits : List ℕ) : ℕ := digits.foldl (fun n d => 16 * n + d) 0

/-- The digest that a text is, in lowercase. -/
def Digest.ofText? (s : PyString) : Option Digest := do
  let text ← s.encode
  let digits ← (text.toList.drop 7).mapM lowerHex?
  if text.toList.take 7 = ['s', 'h', 'a', '2', '5', '6', ':'] ∧ digits.length = 64 then
    some (Fin.ofNat (2 ^ 256) (hexNumber digits))
  else none

theorem lowerHex?_eq_some {c : Char} {n : ℕ} :
    lowerHex? c = some n ↔ n < 16 ∧ Nat.digitChar n = c := by
  have hinj : ∀ m < 16, ∀ n < 16, Nat.digitChar m = Nat.digitChar n → m = n := by decide
  constructor
  · intro h
    exact ⟨List.mem_range.mp (List.mem_of_find?_eq_some h),
      of_decide_eq_true (by simpa only using List.find?_some h)⟩
  · rintro ⟨hn, rfl⟩
    cases hfound : lowerHex? (Nat.digitChar n) with
    | none =>
      have hne := List.find?_eq_none.mp hfound n (List.mem_range.mpr hn)
      exact absurd (decide_eq_true rfl) hne
    | some m =>
      have hm := List.mem_range.mp (List.mem_of_find?_eq_some hfound)
      have heq : Nat.digitChar m = Nat.digitChar n :=
        of_decide_eq_true (by simpa only using List.find?_some hfound)
      rw [hinj m hm n hn heq]

/-- The digits of a number in a width, the most significant first. -/
def hexDigits : ℕ → ℕ → List ℕ
  | 0, _ => []
  | width + 1, n => hexDigits width (n / 16) ++ [n % 16]

theorem hexNumber_append (digits : List ℕ) (d : ℕ) :
    hexNumber (digits ++ [d]) = 16 * hexNumber digits + d := by
  rw [hexNumber, List.foldl_append]
  rfl

theorem hexDigits_spec (width n : ℕ) (hn : n < 16 ^ width) :
    (hexDigits width n).length = width ∧ (∀ d ∈ hexDigits width n, d < 16) ∧
      hexNumber (hexDigits width n) = n := by
  induction width generalizing n with
  | zero => exact ⟨rfl, by simp [hexDigits], (Nat.lt_one_iff.mp hn).symm⟩
  | succ width ih =>
    rw [pow_succ] at hn
    obtain ⟨hlength, hall, hnumber⟩ := ih (n / 16) (Nat.div_lt_of_lt_mul (by omega))
    refine ⟨?_, ?_, ?_⟩
    · rw [hexDigits, List.length_append, hlength]
      rfl
    · intro d hd
      obtain hd | hd := List.mem_append.mp hd
      · exact hall d hd
      · obtain rfl := List.mem_singleton.mp hd
        omega
    · rw [hexDigits, hexNumber_append, hnumber]
      omega

theorem hexNumber_lt (digits : List ℕ) (hall : ∀ d ∈ digits, d < 16) :
    hexNumber digits < 16 ^ digits.length := by
  induction digits using List.reverseRecOn with
  | nil => exact Nat.one_pos
  | append_singleton digits d ih =>
    have hd := hall d (List.mem_append_right _ (List.mem_singleton_self d))
    have hrest := ih fun d hd => hall d (List.mem_append_left _ hd)
    rw [hexNumber_append, List.length_append, List.length_singleton, pow_succ]
    omega

/-- Digits are those of the number that they denote. -/
theorem hexDigits_hexNumber (digits : List ℕ) (hall : ∀ d ∈ digits, d < 16) :
    hexDigits digits.length (hexNumber digits) = digits := by
  induction digits using List.reverseRecOn with
  | nil => rfl
  | append_singleton digits d ih =>
    have hd := hall d (List.mem_append_right _ (List.mem_singleton_self d))
    have hrest := ih fun d hd => hall d (List.mem_append_left _ hd)
    have hdiv : (16 * hexNumber digits + d) / 16 = hexNumber digits := by omega
    have hmod : (16 * hexNumber digits + d) % 16 = d := by omega
    rw [List.length_append, List.length_singleton, hexDigits, hexNumber_append, hdiv, hmod, hrest]

/-- Zeros in front of the numeral of a number give its digits in a width. -/
theorem leftpad_toDigits (width n : ℕ) (hn : n < 16 ^ (width + 1)) :
    (Nat.toDigits 16 n).leftpad (width + 1) '0' = (hexDigits (width + 1) n).map Nat.digitChar := by
  induction width generalizing n with
  | zero =>
    have hlt : n < 16 := by omega
    rw [Nat.toDigits_of_lt_base hlt, hexDigits, hexDigits, Nat.mod_eq_of_lt hlt]
    rfl
  | succ width ih =>
    rw [hexDigits, List.map_append]
    by_cases hlt : n < 16
    · have hzero : n / 16 = 0 := Nat.div_eq_of_lt hlt
      rw [hzero, ← ih 0 (Nat.pow_pos (by decide)), Nat.toDigits_of_lt_base hlt, Nat.mod_eq_of_lt hlt,
        Nat.toDigits_zero]
      simp [List.leftpad, List.replicate_succ']
    · rw [pow_succ] at hn
      rw [← ih (n / 16) (Nat.div_lt_of_lt_mul (by omega)),
        Nat.toDigits_of_base_le (by decide) (by omega)]
      simp [List.leftpad]

theorem mapM_lowerHex? {cs : List Char} {digits : List ℕ} :
    cs.mapM lowerHex? = some digits ↔
      (∀ d ∈ digits, d < 16) ∧ digits.map Nat.digitChar = cs := by
  induction cs generalizing digits with
  | nil => cases digits <;> simp
  | cons c cs ih =>
    simp only [List.mapM_cons, Option.bind_eq_bind, Option.bind_eq_some_iff, Option.pure_def,
      Option.some.injEq, lowerHex?_eq_some, ih]
    constructor
    · rintro ⟨d, ⟨hd, rfl⟩, ds, ⟨hds, rfl⟩, rfl⟩
      exact ⟨List.forall_mem_cons.mpr ⟨hd, hds⟩, rfl⟩
    · rintro ⟨hall, hmap⟩
      cases digits with
      | nil => exact absurd hmap (by simp)
      | cons d ds =>
        obtain ⟨hd, hds⟩ := List.forall_mem_cons.mp hall
        obtain ⟨rfl, rfl⟩ := List.cons.inj hmap
        exact ⟨d, ⟨hd, rfl⟩, ds, ⟨hds, rfl⟩, rfl⟩

theorem hexDigits_bound : 2 ^ 256 = 16 ^ 64 := by decide

/-- The text of a digest, by the digits of its number. -/
theorem Digest.toList_text (digest : Digest) :
    digest.text.toList =
      ['s', 'h', 'a', '2', '5', '6', ':'] ++ (hexDigits 64 digest.val).map Nat.digitChar := by
  have hlt : digest.val < 16 ^ (63 + 1) := digest.isLt.trans_eq hexDigits_bound
  rw [Digest.text, String.toList_append, String.toList_ofList, String.toList_ofList]
  exact congrArg _ (leftpad_toDigits 63 digest.val hlt)

/-- The texts of digests are the texts that `require_digest` accepts. -/
theorem Digest.ofText?_eq_some {s : PyString} {digest : Digest} :
    Digest.ofText? s = some digest ↔ s = .ofString digest.text := by
  simp only [Digest.ofText?, Option.bind_eq_bind, Option.bind_eq_some_iff, mapM_lowerHex?]
  constructor
  · rintro ⟨text, htext, digits, ⟨hall, hdigits⟩, hdigest⟩
    split_ifs at hdigest with hshape
    obtain rfl := Option.some.inj hdigest
    have hdigitsOf := hexDigits_hexNumber digits hall
    rw [hshape.2] at hdigitsOf
    have hlt : hexNumber digits < 2 ^ 256 := by
      rw [hexDigits_bound]
      exact (hexNumber_lt digits hall).trans_eq (congrArg _ hshape.2)
    rw [← PyString.encode_eq_some.mp htext]
    refine congrArg PyString.ofString (String.toList_inj.mp ?_)
    rw [Digest.toList_text, Fin.val_ofNat, Nat.mod_eq_of_lt hlt, hdigitsOf, hdigits, ← hshape.1,
      List.take_append_drop]
  · rintro rfl
    obtain ⟨hlength, hall, hnumber⟩ :=
      hexDigits_spec 64 digest.val (digest.isLt.trans_eq hexDigits_bound)
    have htext := digest.toList_text
    generalize hexDigits 64 digest.val = digits at *
    refine ⟨digest.text, PyString.encode_ofString _, digits, ⟨hall, ?_⟩, ?_⟩
    · rw [htext]
      rfl
    · rw [if_pos ⟨by rw [htext]; rfl, hlength⟩, hnumber]
      exact congrArg some (Fin.ext (Nat.mod_eq_of_lt digest.isLt))

/-- The text of a digest is accepted by `_string` with the bound of the package format. -/
theorem exactText_digest (digest : Digest) : ExactText (.ofString digest.text) 71 := by
  obtain ⟨hlength, hall, -⟩ :=
    hexDigits_spec 64 digest.val (digest.isLt.trans_eq hexDigits_bound)
  have htext := digest.toList_text
  generalize hexDigits 64 digest.val = digits at *
  have hdigit : ∀ d < 16, 0x21 ≤ (Nat.digitChar d).toNat ∧ (Nat.digitChar d).toNat ≤ 0x7e := by
    decide
  refine exactText_of_visible (by rw [htext]; simp) ?_ ?_
  · rw [htext]
    refine List.forall_mem_append.mpr ⟨by simp, fun c hc => ?_⟩
    obtain ⟨d, hd, rfl⟩ := List.mem_map.mp hc
    exact hdigit d (hall d hd)
  · rw [htext, List.length_append, List.length_map, hlength]
    decide

/-- A canonical version has at most 29 characters. -/
theorem length_le_of_isCanonicalVersion {version : String}
    (h : isCanonicalVersion version = true) : version.toList.length ≤ 29 := by
  simp only [isCanonicalVersion, Bool.and_eq_true, beq_iff_eq, List.all_eq_true] at h
  obtain ⟨hthree, hparts⟩ := h
  have hpart : ∀ digits ∈ version.toList.splitOn '.', digits.length ≤ 9 := by
    intro digits hdigits
    have hnumber := hparts digits hdigits
    simp only [isVersionNumber, Bool.or_eq_true, beq_iff_eq, Bool.and_eq_true,
      decide_eq_true_eq] at hnumber
    obtain rfl | ⟨_, hle⟩ := hnumber
    · decide
    · exact hle
  have hjoin := @List.intercalate_splitOn _ version.toList _ _ '.'
  obtain ⟨a, b, c, habc⟩ := List.length_eq_three.mp hthree
  rw [habc] at hjoin hpart
  have ha := hpart a (by simp)
  have hb := hpart b (by simp)
  have hc := hpart c (by simp)
  rw [← hjoin]
  simp [List.intercalate, List.intersperse]
  omega

/-- A canonical version is accepted by `_string` with the bound of the package format. -/
theorem exactText_version {version : String} (h : isCanonicalVersion version = true) :
    ExactText (.ofString version) 32 := by
  refine exactText_of_visible ?_ ?_ ((length_le_of_isCanonicalVersion h).trans (by decide))
  · intro hnil
    rw [isCanonicalVersion, hnil] at h
    exact absurd h (by decide)
  · intro c hc
    obtain rfl | hdigit := isDigit_of_isCanonicalVersion h hc
    · decide
    · have hzero : '0'.val.toNat = 48 := rfl
      have hnine : '9'.val.toNat = 57 := rfl
      have hval : c.val.toNat = c.toNat := rfl
      simp only [Char.isDigit, Bool.and_eq_true, decide_eq_true_eq, ge_iff_le,
        UInt32.le_iff_toNat_le] at hdigit
      omega

-- ════════════════════════════════════════════════════════════════════════
-- Displays
-- ════════════════════════════════════════════════════════════════════════

/-- `LocalizedDisplay`, over text that may not be encodable. -/
structure DisplayText where
  name : PyString
  summary : PyString

/-- The constructor of a display. -/
def DisplayText.make (name summary : PyString) : Outcome DisplayText := do
  require (ExactText name 128) (stringFailure name "display.name")
  require (ExactText summary 512) (stringFailure summary "display.summary")
  pure ⟨name, summary⟩

def DisplayText.toData (display : DisplayText) : WireJson :=
  record [("name", .str display.name), ("summary", .str display.summary)]

/-- `_localized_display`. -/
def localizedDisplay (value : WireJson) (locale : String) : Outcome DisplayText := do
  let raw ← packageMapping value ("metadata.display." ++ locale) ["name", "summary"]
  let name ← packageString (getField raw "name") ("metadata.display." ++ locale ++ ".name") 128
  let summary ← packageString (getField raw "summary")
    ("metadata.display." ++ locale ++ ".summary") 512
  DisplayText.make name summary

-- ════════════════════════════════════════════════════════════════════════
-- Steps
-- ════════════════════════════════════════════════════════════════════════

def WorkflowStepType.value : WorkflowStepType → String
  | .instruction => "instruction"
  | .condition => "condition"
  | .proposeEffect => "propose_effect"
  | .complete => "complete"

/-- `WorkflowStepType(value)`. -/
def WorkflowStepType.ofValue? (value : PyString) : Option WorkflowStepType :=
  [.instruction, .condition, .proposeEffect, .complete].find?
    fun stepType => decide (PyString.ofString stepType.value = value)

/-- The keys of a step of each type. -/
def WorkflowStepType.keys : WorkflowStepType → List String
  | .instruction => ["id", "type", "prompt", "next"]
  | .condition => ["id", "type", "predicate", "on_true", "on_false"]
  | .proposeEffect => ["id", "type", "effect_kind", "next"]
  | .complete => ["id", "type"]

/-- The arguments of the constructor of a step. -/
structure StepArguments where
  stepId : PyString
  stepType : WorkflowStepType
  prompt : Option PyString := none
  nextStep : Option PyString := none
  predicate : Option PyString := none
  onTrue : Option PyString := none
  onFalse : Option PyString := none
  effectKind : Option PyString := none

/-- One of the given words, as a text. -/
def wordOf? (words : List String) (s : Option PyString) : Option { w : String // w ∈ words } :=
  s.bind fun s => words.attach.find? fun w => decide (PyString.ofString w.val = s)

theorem instructionFields (next : StableId) :
    StepFields .instruction (some "primary") (some next) none none none none :=
  ⟨⟨rfl, by simp⟩, rfl, rfl, rfl, rfl⟩

theorem conditionFields {predicate : String} (hpredicate : predicate ∈ allowedPredicates)
    {onTrue onFalse : StableId} (hne : onTrue ≠ onFalse) :
    StepFields .condition none none (some predicate) (some onTrue) (some onFalse) none :=
  ⟨⟨⟨predicate, hpredicate, rfl⟩, by simp, by simp, by simpa using hne⟩, rfl, rfl, rfl⟩

theorem effectFields {kind : String} (hkind : kind ∈ allowedEffectKinds) (next : StableId) :
    StepFields .proposeEffect none (some next) none none none (some kind) :=
  ⟨⟨⟨kind, hkind, rfl⟩, by simp⟩, rfl, rfl, rfl, rfl⟩

def bindingUnsupported : Failure := .coreInvariant "condition step binding is unsupported"

/-- The constructor of a step. -/
def WorkflowStep.make (args : StepArguments) : Outcome WorkflowStep := do
  let stepId ← requireStableText args.stepId "workflow step id"
  match args.stepType with
  | .instruction => do
    require (args.prompt = some (.ofString "primary"))
      (.coreInvariant "instruction step binding is incomplete")
    let next ← orFail args.nextStep (.coreInvariant "instruction step binding is incomplete")
    require (args.predicate = none ∧ args.onTrue = none ∧ args.onFalse = none ∧
      args.effectKind = none) (.coreInvariant "instruction step has forbidden fields")
    let next ← requireStableText next "workflow next step"
    pure ⟨stepId, .instruction, some "primary", some next, none, none, none, none,
      instructionFields next⟩
  | .condition => do
    let predicate ← orFail (wordOf? allowedPredicates args.predicate) bindingUnsupported
    let onTrue ← orFail args.onTrue bindingUnsupported
    let onFalse ← orFail args.onFalse bindingUnsupported
    require (onTrue ≠ onFalse) bindingUnsupported
    require (args.prompt = none ∧ args.nextStep = none ∧ args.effectKind = none)
      (.coreInvariant "condition step has forbidden fields")
    let onTrue ← requireStableText onTrue "workflow true branch"
    let onFalse ← requireStableText onFalse "workflow false branch"
    -- the texts differ, so the identifiers do
    if hne : onTrue ≠ onFalse then
      pure ⟨stepId, .condition, none, none, some predicate.val, some onTrue, some onFalse, none,
        conditionFields predicate.property hne⟩
    else .error bindingUnsupported
  | .proposeEffect => do
    let kind ← orFail (wordOf? allowedEffectKinds args.effectKind)
      (.coreInvariant "effect proposal step binding is unsupported")
    let next ← orFail args.nextStep
      (.coreInvariant "effect proposal step binding is unsupported")
    require (args.prompt = none ∧ args.predicate = none ∧ args.onTrue = none ∧ args.onFalse = none)
      (.coreInvariant "effect proposal step has forbidden fields")
    let next ← requireStableText next "workflow next step"
    pure ⟨stepId, .proposeEffect, none, some next, none, none, none, some kind.val,
      effectFields kind.property next⟩
  | .complete => do
    require (args.prompt = none ∧ args.nextStep = none ∧ args.predicate = none ∧
      args.onTrue = none ∧ args.onFalse = none ∧ args.effectKind = none)
      (.coreInvariant "complete step must be terminal")
    pure ⟨stepId, .complete, none, none, none, none, none, none, completeFields⟩

/-- `_workflow_step`. -/
def workflowStep (value : WireJson) : Outcome WorkflowStep := do
  let entries ← orFail value.object?
    (.coreInvariant "workflow step must be an object with an explicit type")
  let text ← orFail (getField entries "type").str?
    (.coreInvariant "workflow step must be an object with an explicit type")
  let stepType ← orFail (WorkflowStepType.ofValue? text)
    (.coreInvariant "workflow step type is unsupported")
  let raw ← packageMapping value "workflow step" stepType.keys
  let stepId ← packageString (getField raw "id") "workflow step id" 128
  match stepType with
  | .instruction => do
    let prompt ← packageString (getField raw "prompt") "workflow prompt selector" 32
    let next ← packageString (getField raw "next") "workflow next step" 128
    WorkflowStep.make { stepId, stepType, prompt := some prompt, nextStep := some next }
  | .condition => do
    let predicate ← packageString (getField raw "predicate") "workflow predicate" 64
    let onTrue ← packageString (getField raw "on_true") "workflow true branch" 128
    let onFalse ← packageString (getField raw "on_false") "workflow false branch" 128
    WorkflowStep.make
      { stepId, stepType, predicate := some predicate, onTrue := some onTrue,
        onFalse := some onFalse }
  | .proposeEffect => do
    let kind ← packageString (getField raw "effect_kind") "workflow effect kind" 64
    let next ← packageString (getField raw "next") "workflow next step" 128
    WorkflowStep.make { stepId, stepType, effectKind := some kind, nextStep := some next }
  | .complete => WorkflowStep.make { stepId, stepType }

/-- `type(value) is int`. -/
def WireJson.int? : WireJson → Option ℤ
  | .int n => some n
  | _ => none

/-- A text, or `None`. -/
def optionalText (s : Option PyString) : WireJson :=
  match s with
  | some s => .str s
  | none => .null

/-- `WorkflowStep.to_data`, of the texts of a step. -/
def StepArguments.toData (args : StepArguments) : WireJson :=
  let id : String × WireJson := ("id", .str args.stepId)
  let type : String × WireJson := ("type", .str (.ofString args.stepType.value))
  let next : String × WireJson := ("next", optionalText args.nextStep)
  match args.stepType with
  | .instruction => record [id, type, ("prompt", optionalText args.prompt), next]
  | .condition => record
    [id, type, ("predicate", optionalText args.predicate), ("on_true", optionalText args.onTrue),
      ("on_false", optionalText args.onFalse)]
  | .proposeEffect => record [id, type, ("effect_kind", optionalText args.effectKind), next]
  | .complete => record [id, type]

-- ════════════════════════════════════════════════════════════════════════
-- What the constructors accept
-- ════════════════════════════════════════════════════════════════════════

theorem wordOf?_eq_some {words : List String} {s : Option PyString} {w : { w // w ∈ words }} :
    wordOf? words s = some w ↔ s = some (.ofString w.val) := by
  simp only [wordOf?, Option.bind_eq_some_iff]
  constructor
  · rintro ⟨text, rfl, hfind⟩
    have hsame : PyString.ofString w.val = text :=
      of_decide_eq_true (by simpa only using List.find?_some hfind)
    rw [hsame]
  · rintro rfl
    refine ⟨_, rfl, ?_⟩
    cases hfound : words.attach.find? fun v => decide (PyString.ofString v.val = .ofString w.val) with
    | none =>
      have hne := List.find?_eq_none.mp hfound w (List.mem_attach _ w)
      exact absurd (decide_eq_true rfl) hne
    | some v =>
      have hsame : PyString.ofString v.val = .ofString w.val :=
        of_decide_eq_true (by simpa only using List.find?_some hfound)
      rw [Subtype.ext (PyString.ofString_injective hsame)]

/-- The arguments that a step is constructed from. -/
def WorkflowStep.arguments (step : WorkflowStep) : StepArguments where
  stepId := .ofString step.stepId.val
  stepType := step.stepType
  prompt := step.prompt.map .ofString
  nextStep := step.nextStep.map fun id => .ofString id.val
  predicate := step.predicate.map .ofString
  onTrue := step.onTrue.map fun id => .ofString id.val
  onFalse := step.onFalse.map fun id => .ofString id.val
  effectKind := step.effectKind.map .ofString

def WorkflowStep.toData (step : WorkflowStep) : WireJson := step.arguments.toData

theorem WorkflowStep.arguments_of_make {args : StepArguments} {step : WorkflowStep}
    (h : WorkflowStep.make args = .ok step) : args = step.arguments := by
  obtain ⟨stepId, stepType, prompt, nextStep, predicate, onTrue, onFalse, effectKind⟩ := args
  simp only [make, bind_eq_ok, requireStableText_eq_ok] at h
  obtain ⟨id, rfl, h⟩ := h
  cases stepType with
  | instruction =>
    simp only [bind_eq_ok, require_eq_ok, exists_const, orFail_eq_ok, requireStableText_eq_ok,
      pure_eq_ok] at h
    obtain ⟨rfl, _, rfl, ⟨rfl, rfl, rfl, rfl⟩, next, rfl, rfl⟩ := h
    rfl
  | condition =>
    simp only [bind_eq_ok, require_eq_ok, exists_const, orFail_eq_ok, requireStableText_eq_ok,
      wordOf?_eq_some] at h
    obtain ⟨predicate, rfl, _, rfl, _, rfl, _, ⟨rfl, rfl, rfl⟩, onTrue, rfl, onFalse, rfl, h⟩ := h
    split at h
    · obtain rfl := pure_eq_ok.mp h
      rfl
    · exact absurd h (by simp)
  | proposeEffect =>
    simp only [bind_eq_ok, require_eq_ok, exists_const, orFail_eq_ok, requireStableText_eq_ok,
      wordOf?_eq_some, pure_eq_ok] at h
    obtain ⟨kind, rfl, _, rfl, ⟨rfl, rfl, rfl, rfl⟩, next, rfl, rfl⟩ := h
    rfl
  | complete =>
    simp only [bind_eq_ok, require_eq_ok, exists_const, pure_eq_ok] at h
    obtain ⟨⟨rfl, rfl, rfl, rfl, rfl, rfl⟩, rfl⟩ := h
    rfl

theorem WorkflowStep.make_arguments (step : WorkflowStep) :
    WorkflowStep.make step.arguments = .ok step := by
  obtain ⟨stepId, stepType, prompt, nextStep, predicate, onTrue, onFalse, effectKind, fields⟩ :=
    step
  cases stepType with
  | instruction =>
    obtain ⟨⟨rfl, hnext⟩, rfl, rfl, rfl, rfl⟩ := fields
    obtain ⟨next, rfl⟩ := Option.ne_none_iff_exists'.mp hnext
    simp only [make, arguments, Option.map_some, Option.map_none, bind_eq_ok, require_eq_ok, true_and,
      and_self, exists_const,
      orFail_eq_ok, requireStableText_eq_ok, pure_eq_ok]
    exact ⟨stepId, rfl, _, rfl, next, rfl, rfl⟩
  | condition =>
    obtain ⟨⟨⟨predicate, hpredicate, rfl⟩, htrue, hfalse, hne⟩, rfl, rfl, rfl⟩ := fields
    obtain ⟨onTrue, rfl⟩ := Option.ne_none_iff_exists'.mp htrue
    obtain ⟨onFalse, rfl⟩ := Option.ne_none_iff_exists'.mp hfalse
    have hids : onTrue ≠ onFalse := fun h => hne (congrArg some h)
    have htexts : PyString.ofString onTrue.val ≠ PyString.ofString onFalse.val := fun h =>
      hids (Subtype.ext (PyString.ofString_injective h))
    simp only [make, arguments, Option.map_some, Option.map_none, bind_eq_ok, require_eq_ok, true_and,
      and_self, exists_const,
      orFail_eq_ok, requireStableText_eq_ok, wordOf?_eq_some]
    refine ⟨stepId, rfl, ⟨predicate, hpredicate⟩, rfl, _, rfl, _, rfl, htexts,
      onTrue, rfl, onFalse, rfl, ?_⟩
    rw [dif_pos hids]
    rfl
  | proposeEffect =>
    obtain ⟨⟨⟨kind, hkind, rfl⟩, hnext⟩, rfl, rfl, rfl, rfl⟩ := fields
    obtain ⟨next, rfl⟩ := Option.ne_none_iff_exists'.mp hnext
    simp only [make, arguments, Option.map_some, Option.map_none, bind_eq_ok, require_eq_ok, true_and,
      and_self, exists_const,
      orFail_eq_ok, requireStableText_eq_ok, wordOf?_eq_some, pure_eq_ok]
    exact ⟨stepId, rfl, ⟨kind, hkind⟩, rfl, _, rfl, next, rfl, rfl⟩
  | complete =>
    obtain ⟨rfl, rfl, rfl, rfl, rfl, rfl⟩ := fields
    simp only [make, arguments, Option.map_none, bind_eq_ok, require_eq_ok, true_and, and_self, exists_const,
      requireStableText_eq_ok, pure_eq_ok]
    exact ⟨stepId, rfl, rfl⟩

/-- The constructor of a step accepts the arguments of the step and no others. -/
theorem WorkflowStep.make_eq_ok {args : StepArguments} {step : WorkflowStep} :
    WorkflowStep.make args = .ok step ↔ args = step.arguments :=
  ⟨arguments_of_make, fun h => h ▸ step.make_arguments⟩

-- ════════════════════════════════════════════════════════════════════════
-- Reading a step
-- ════════════════════════════════════════════════════════════════════════

theorem uniqueKeys_getField {entries : List (PyString × WireJson)} (field : String)
    (hu : (WireJson.object entries).UniqueKeys) : (getField entries field).UniqueKeys := by
  unfold getField
  cases hfound : entries.find? fun e => decide (e.1 = .ofString field) with
  | none => trivial
  | some e => exact WireJson.uniqueKeysEntries_iff.mp hu.2 e (List.mem_of_find?_eq_some hfound)

theorem hasFields_perm {entries : List (PyString × WireJson)} {keys names : List String}
    (hperm : keys.Perm names) : hasFields entries keys = hasFields entries names := by
  rw [Bool.eq_iff_iff, hasFields_iff, hasFields_iff]
  exact forall_congr' fun key => iff_congr Iff.rfl (hperm.map _).mem_iff

/-- A document with the canonical value of an object is read by `_mapping` with its keys, and
    its fields have the canonical values of the fields. -/
theorem packageMapping_canonical {v : WireJson} (hu : v.UniqueKeys) (field : String)
    {keys : List String} {fields : List (String × WireJson)}
    (hsorted : (fields.map Prod.fst).Pairwise (· < ·)) (hkeys : keys.Perm (fields.map Prod.fst)) :
    canonicalValue v = .ok (record fields) ↔ ∃ entries, packageMapping v field keys = .ok entries ∧
      ∀ f ∈ fields, canonicalValue (getField entries f.1) = .ok f.2 := by
  simp only [packageMapping_eq_ok, hasFields_perm hkeys]
  constructor
  · intro h
    obtain ⟨entries, rfl⟩ := canonicalValue_eq_object h
    obtain ⟨hfields, hvalues⟩ := (canonicalValue_object hu.1 hsorted).mp h
    exact ⟨entries, ⟨rfl, hfields⟩, hvalues⟩
  · rintro ⟨entries, ⟨rfl, hfields⟩, hvalues⟩
    exact (canonicalValue_object hu.1 hsorted).mpr ⟨hfields, hvalues⟩

/-- The canonical value of a written object. -/
theorem canonicalValue_record {fields sorted : List (String × WireJson)}
    (hsorted : (sorted.map Prod.fst).Pairwise (· < ·))
    (hkeys : (fields.map Prod.fst).Perm (sorted.map Prod.fst))
    (hvalues : ∀ f ∈ sorted, ∃ v, (f.1, v) ∈ fields ∧ canonicalValue v = .ok f.2) :
    canonicalValue (record fields) = .ok (record sorted) := by
  have hnodup : ((fieldEntries fields).map Prod.fst).Nodup := by
    rw [map_fst_fieldEntries]
    exact ((hkeys.nodup_iff.mpr (hsorted.imp ne_of_lt))).map PyString.ofString_injective
  refine (canonicalValue_object hnodup hsorted).mpr ⟨?_, fun f hf => ?_⟩
  · rw [hasFields_iff]
    intro key
    rw [map_fst_fieldEntries]
    exact (hkeys.map _).mem_iff
  · obtain ⟨v, hmem, hv⟩ := hvalues f hf
    rw [getField_eq hnodup (List.mem_map_of_mem hmem)]
    exact hv

/-- The fields of a step, by their names. -/
def StepArguments.sorted (args : StepArguments) : List (String × WireJson) :=
  let id : String × WireJson := ("id", .str args.stepId)
  let type : String × WireJson := ("type", .str (.ofString args.stepType.value))
  let next : String × WireJson := ("next", optionalText args.nextStep)
  match args.stepType with
  | .instruction => [id, next, ("prompt", optionalText args.prompt), type]
  | .condition =>
    [id, ("on_false", optionalText args.onFalse), ("on_true", optionalText args.onTrue),
      ("predicate", optionalText args.predicate), type]
  | .proposeEffect => [("effect_kind", optionalText args.effectKind), id, next, type]
  | .complete => [id, type]

def WorkflowStepType.sortedKeys : WorkflowStepType → List String
  | .instruction => ["id", "next", "prompt", "type"]
  | .condition => ["id", "on_false", "on_true", "predicate", "type"]
  | .proposeEffect => ["effect_kind", "id", "next", "type"]
  | .complete => ["id", "type"]

theorem WorkflowStepType.sortedKeys_sorted (stepType : WorkflowStepType) :
    stepType.sortedKeys.Pairwise (· < ·) := by
  cases stepType <;> decide +kernel

theorem WorkflowStepType.keys_perm (stepType : WorkflowStepType) :
    stepType.keys.Perm stepType.sortedKeys := by
  cases stepType <;> decide

theorem StepArguments.map_fst_sorted (args : StepArguments) :
    args.sorted.map Prod.fst = args.stepType.sortedKeys := by
  obtain ⟨_, stepType, _⟩ := args
  cases stepType <;> rfl

theorem StepArguments.keys_sorted (args : StepArguments) :
    (args.sorted.map Prod.fst).Pairwise (· < ·) := by
  rw [args.map_fst_sorted]
  exact args.stepType.sortedKeys_sorted

theorem StepArguments.keys_perm (args : StepArguments) :
    args.stepType.keys.Perm (args.sorted.map Prod.fst) := by
  rw [args.map_fst_sorted]
  exact args.stepType.keys_perm

theorem canonicalValue_optionalText (s : Option PyString) :
    canonicalValue (optionalText s) = .ok (optionalText s) := by
  cases s <;> rfl

theorem StepArguments.canonicalValue_toData (args : StepArguments) :
    canonicalValue args.toData = .ok (record args.sorted) := by
  have hsorted := args.keys_sorted
  have hperm := args.keys_perm
  obtain ⟨stepId, stepType, _⟩ := args
  cases stepType with
  | instruction | condition | proposeEffect | complete =>
    refine canonicalValue_record hsorted hperm ?_
    simp [sorted, canonicalValue_optionalText, canonicalValue]

theorem WorkflowStepType.ofValue?_eq_some {s : PyString} {stepType : WorkflowStepType} :
    WorkflowStepType.ofValue? s = some stepType ↔ s = .ofString stepType.value := by
  constructor
  · intro h
    have hsame : PyString.ofString stepType.value = s :=
      of_decide_eq_true (by simpa only using List.find?_some h)
    exact hsame.symm
  · rintro rfl
    cases stepType <;> decide +kernel

/-- The words of a workflow are accepted by `_string`. -/
theorem exactText_words :
    ExactText (.ofString "primary") 32 ∧
      (∀ w ∈ allowedPredicates, ExactText (.ofString w) 64) ∧
      ∀ w ∈ allowedEffectKinds, ExactText (.ofString w) 64 := by
  decide +kernel

/-- The documents that are read as a step are those with its canonical value. -/
theorem workflowStep_eq_ok {v : WireJson} (hu : v.UniqueKeys) {step : WorkflowStep} :
    workflowStep v = .ok step ↔ canonicalValue v = canonicalValue step.toData := by
  rw [WorkflowStep.toData, StepArguments.canonicalValue_toData]
  simp only [workflowStep, bind_eq_ok, orFail_eq_ok, packageString_eq_ok,
    WorkflowStepType.ofValue?_eq_some]
  constructor
  · rintro ⟨entries, hentries, text, htext, stepType, rfl, raw, hraw, stepId, ⟨hid, _⟩, h⟩
    have hsame : entries = raw := by
      obtain ⟨rfl, _⟩ := packageMapping_eq_ok.mp hraw
      exact (Option.some.inj hentries).symm
    obtain rfl := hsame
    have htype := WireJson.str?_eq_some.mp htext
    have hread : ∀ args : StepArguments, args = step.arguments → args.stepType = stepType →
        (∀ f ∈ args.sorted, canonicalValue (getField entries f.1) = .ok f.2) →
        canonicalValue v = .ok (record step.arguments.sorted) := by
      rintro args rfl rfl hvalues
      exact (packageMapping_canonical hu "workflow step" (StepArguments.keys_sorted _)
        (StepArguments.keys_perm _)).mpr ⟨entries, hraw, hvalues⟩
    cases stepType with
    | instruction =>
      simp only [bind_eq_ok, packageString_eq_ok] at h
      obtain ⟨prompt, ⟨hprompt, _⟩, next, ⟨hnext, _⟩, h⟩ := h
      refine hread _ (WorkflowStep.make_eq_ok.mp h) rfl ?_
      simp [StepArguments.sorted, optionalText, canonicalValue, hid, hprompt, hnext, htype]
    | condition =>
      simp only [bind_eq_ok, packageString_eq_ok] at h
      obtain ⟨predicate, ⟨hpredicate, _⟩, onTrue, ⟨honTrue, _⟩, onFalse, ⟨honFalse, _⟩, h⟩ := h
      refine hread _ (WorkflowStep.make_eq_ok.mp h) rfl ?_
      simp [StepArguments.sorted, optionalText, canonicalValue, hid, hpredicate, honTrue, honFalse,
        htype]
    | proposeEffect =>
      simp only [bind_eq_ok, packageString_eq_ok] at h
      obtain ⟨kind, ⟨hkind, _⟩, next, ⟨hnext, _⟩, h⟩ := h
      refine hread _ (WorkflowStep.make_eq_ok.mp h) rfl ?_
      simp [StepArguments.sorted, optionalText, canonicalValue, hid, hkind, hnext, htype]
    | complete =>
      refine hread _ (WorkflowStep.make_eq_ok.mp h) rfl ?_
      simp [StepArguments.sorted, canonicalValue, hid, htype]
  · intro h
    obtain ⟨raw, hraw, hvalues⟩ := (packageMapping_canonical hu "workflow step"
      (StepArguments.keys_sorted _) (StepArguments.keys_perm _)).mp h
    obtain ⟨rfl, _⟩ := packageMapping_eq_ok.mp hraw
    have hmake := step.make_arguments
    obtain ⟨hprimary, hpredicates, hkinds⟩ := exactText_words
    obtain ⟨stepId, stepType, prompt, nextStep, predicate, onTrue, onFalse, effectKind, fields⟩ :=
      step
    have hstepId := exactText_stableId stepId
    cases stepType with
    | instruction =>
      obtain ⟨⟨rfl, hnext⟩, rfl, rfl, rfl, rfl⟩ := fields
      obtain ⟨next, rfl⟩ := Option.ne_none_iff_exists'.mp hnext
      simp only [StepArguments.sorted, WorkflowStep.arguments, Option.map_some, optionalText,
        List.forall_mem_cons, canonicalValue_eq_str] at hvalues
      obtain ⟨hid, hnext, hprompt, htype, _⟩ := hvalues
      refine ⟨raw, rfl, _, WireJson.str?_eq_some.mpr htype, .instruction, rfl, raw, hraw, _, ⟨hid, hstepId⟩, ?_⟩
      simp only [bind_eq_ok, packageString_eq_ok]
      exact ⟨_, ⟨hprompt, hprimary⟩, _, ⟨hnext, exactText_stableId next⟩, hmake⟩
    | condition =>
      obtain ⟨⟨⟨predicate, hpredicate, rfl⟩, htrue, hfalse, hne⟩, rfl, rfl, rfl⟩ := fields
      obtain ⟨onTrue, rfl⟩ := Option.ne_none_iff_exists'.mp htrue
      obtain ⟨onFalse, rfl⟩ := Option.ne_none_iff_exists'.mp hfalse
      simp only [StepArguments.sorted, WorkflowStep.arguments, Option.map_some, optionalText,
        List.forall_mem_cons, canonicalValue_eq_str] at hvalues
      obtain ⟨hid, honFalse, honTrue, hword, htype, _⟩ := hvalues
      refine ⟨raw, rfl, _, WireJson.str?_eq_some.mpr htype, .condition, rfl, raw, hraw, _, ⟨hid, hstepId⟩, ?_⟩
      simp only [bind_eq_ok, packageString_eq_ok]
      exact ⟨_, ⟨hword, hpredicates _ hpredicate⟩, _, ⟨honTrue, exactText_stableId onTrue⟩, _,
        ⟨honFalse, exactText_stableId onFalse⟩, hmake⟩
    | proposeEffect =>
      obtain ⟨⟨⟨kind, hkind, rfl⟩, hnext⟩, rfl, rfl, rfl, rfl⟩ := fields
      obtain ⟨next, rfl⟩ := Option.ne_none_iff_exists'.mp hnext
      simp only [StepArguments.sorted, WorkflowStep.arguments, Option.map_some, optionalText,
        List.forall_mem_cons, canonicalValue_eq_str] at hvalues
      obtain ⟨hword, hid, hnext, htype, _⟩ := hvalues
      refine ⟨raw, rfl, _, WireJson.str?_eq_some.mpr htype, .proposeEffect, rfl, raw, hraw, _,
        ⟨hid, hstepId⟩, ?_⟩
      simp only [bind_eq_ok, packageString_eq_ok]
      exact ⟨_, ⟨hword, hkinds _ hkind⟩, _, ⟨hnext, exactText_stableId next⟩, hmake⟩
    | complete =>
      obtain ⟨rfl, rfl, rfl, rfl, rfl, rfl⟩ := fields
      simp only [StepArguments.sorted, WorkflowStep.arguments, List.forall_mem_cons,
        canonicalValue_eq_str] at hvalues
      obtain ⟨hid, htype, _⟩ := hvalues
      exact ⟨raw, rfl, _, WireJson.str?_eq_some.mpr htype, .complete, rfl, raw, hraw, _, ⟨hid, hstepId⟩,
        hmake⟩

-- ════════════════════════════════════════════════════════════════════════
-- Packages
-- ════════════════════════════════════════════════════════════════════════

/-- The constructor of a workflow. -/
def DeclarativeWorkflow.make (entrypoint : PyString) (steps : List WorkflowStep) :
    Outcome DeclarativeWorkflow := do
  let entrypoint ← requireStableText entrypoint "workflow entrypoint"
  match h : checkWorkflow entrypoint steps with
  | .ok () => .ok ⟨entrypoint, steps, h⟩
  | .error e => .error e

/-- The arguments of the constructor of a package; no caller gives it another schema. -/
structure PackageArguments where
  packageId : PyString
  version : PyString
  runtimeApi : PyString
  displayEnUs : DisplayText
  displayZhTw : DisplayText
  promptEnUs : PyString
  promptZhTw : PyString
  requestedCapabilities : List PyString
  workflow : DeclarativeWorkflow
  contentDigest : PyString

namespace PackageArguments

variable (args : PackageArguments)

/-- `metadata_data`. -/
def metadataData : WireJson :=
  record
    [("package_id", .str args.packageId), ("version", .str args.version),
      ("runtime_api", .str args.runtimeApi),
      ("display",
        record [("en-US", args.displayEnUs.toData), ("zh-TW", args.displayZhTw.toData)])]

/-- `DeclarativeWorkflow.to_data`. -/
def workflowData : WireJson :=
  record
    [("entrypoint", .str (.ofString args.workflow.entrypoint.val)),
      ("steps", .array (args.workflow.steps.map WorkflowStep.toData))]

/-- `content_data`. -/
def contentData : WireJson :=
  record
    [("prompts", record [("en-US", .str args.promptEnUs), ("zh-TW", .str args.promptZhTw)]),
      ("requested_capabilities", .array (args.requestedCapabilities.map .str)),
      ("workflow", args.workflowData)]

/-- `to_data`. -/
def toData : WireJson :=
  record
    [("schema", .str (.ofString "dc-agent/v1")), ("schema_version", .int 1),
      ("metadata", args.metadataData), ("content", args.contentData),
      ("content_digest", .str args.contentDigest)]

end PackageArguments

/-- A prompt that the constructor of a package accepts. -/
def InertPrompt (prompt : PyString) : Prop := PyString.strip prompt ≠ [] ∧ prompt.length ≤ 8192

instance (prompt : PyString) : Decidable (InertPrompt prompt) := by
  unfold InertPrompt
  infer_instance

/-- A version, as a text that arrives. -/
def versionOf? (s : PyString) : Option { version : String // isCanonicalVersion version = true } :=
  s.encode.bind fun version =>
    if h : isCanonicalVersion version = true then some ⟨version, h⟩ else none

def DisplayText.encode? (display : DisplayText) : Option LocalizedDisplay := do
  let name ← display.name.encode
  let summary ← display.summary.encode
  pure ⟨name, summary⟩

/-- The package over encodable text. -/
def PackageArguments.package? (args : PackageArguments) (packageId : StableId)
    (version : { version : String // isCanonicalVersion version = true })
    (contentDigest : Digest) : Option AgentPackage := do
  let displayEnUs ← args.displayEnUs.encode?
  let displayZhTw ← args.displayZhTw.encode?
  let promptEnUs ← args.promptEnUs.encode
  let promptZhTw ← args.promptZhTw.encode
  let requestedCapabilities ← args.requestedCapabilities.mapM PyString.encode
  pure
    { packageId, version := version.val, displayEnUs, displayZhTw, promptEnUs, promptZhTw,
      requestedCapabilities, workflow := args.workflow, contentDigest,
      version_canonical := version.property }

section Packages

variable (sha256 : List UInt8 → Digest)

/-- The constructor of a package. -/
def AgentPackage.make (args : PackageArguments) : Outcome AgentPackage := do
  let packageId ← requireStableText args.packageId "package_id"
  let version ← orFail (versionOf? args.version)
    (.coreInvariant "package version must be canonical MAJOR.MINOR.PATCH")
  require (args.runtimeApi = .ofString "1")
    (.coreInvariant "AgentPackage runtime API is unsupported")
  require (InertPrompt args.promptEnUs) (.coreInvariant "en-US prompt must be inert bounded text")
  require (InertPrompt args.promptZhTw) (.coreInvariant "zh-TW prompt must be inert bounded text")
  require (args.requestedCapabilities ≠ [] ∧ args.requestedCapabilities.length ≤ 16)
    (.coreInvariant "requested capabilities are empty or exceed the fixed bound")
  require (args.requestedCapabilities.Nodup ∧
      ∀ capability ∈ args.requestedCapabilities,
        capability ∈ allowedCapabilities.map PyString.ofString)
    (.coreInvariant "requested capability is duplicate or unsupported")
  let contentDigest ← orFail (Digest.ofText? args.contentDigest)
    (.coreInvariant "content_digest must be a lowercase SHA-256 digest")
  let content ← canonicalJsonBytes args.contentData
  require (contentDigest = sha256 content)
    (.coreInvariant "package manifest and content digest do not match")
  let bytes ← canonicalJsonBytes args.toData
  require (bytes.length ≤ 65536) (.coreInvariant "canonical package exceeds the fixed byte bound")
  -- the bytes above are an encoding of every text
  orFail (args.package? packageId version contentDigest)
    (.coreInvariant "package JSON cannot be canonically encoded")

/-- `agent_package_from_mapping`. -/
def agentPackageFromMapping (value : WireJson) : Outcome AgentPackage := do
  let root ← packageMapping value "AgentPackage"
    ["schema", "schema_version", "metadata", "content", "content_digest"]
  require ((getField root "schema").str? = some (.ofString "dc-agent/v1"))
    (.coreInvariant "AgentPackage schema or version is unsupported")
  require ((getField root "schema_version").int? = some 1)
    (.coreInvariant "AgentPackage schema or version is unsupported")
  let metadata ← packageMapping (getField root "metadata") "metadata"
    ["package_id", "version", "runtime_api", "display"]
  let display ← packageMapping (getField metadata "display") "metadata.display" ["en-US", "zh-TW"]
  let content ← packageMapping (getField root "content") "content"
    ["prompts", "requested_capabilities", "workflow"]
  let prompts ← packageMapping (getField content "prompts") "content.prompts" ["en-US", "zh-TW"]
  let values ← packageSequence (getField content "requested_capabilities") "requested_capabilities"
  let requestedCapabilities ← values.mapM fun item => packageString item "requested capability" 64
  let workflow ← packageMapping (getField content "workflow") "workflow" ["entrypoint", "steps"]
  let items ← packageSequence (getField workflow "steps") "workflow.steps"
  let steps ← items.mapM workflowStep
  let packageId ← packageString (getField metadata "package_id") "package_id" 128
  let version ← packageString (getField metadata "version") "version" 32
  let runtimeApi ← packageString (getField metadata "runtime_api") "runtime_api" 16
  let displayEnUs ← localizedDisplay (getField display "en-US") "en-US"
  let displayZhTw ← localizedDisplay (getField display "zh-TW") "zh-TW"
  let promptEnUs ← packageString (getField prompts "en-US") "en-US prompt" 8192
  let promptZhTw ← packageString (getField prompts "zh-TW") "zh-TW prompt" 8192
  let entrypoint ← packageString (getField workflow "entrypoint") "workflow entrypoint" 128
  let workflow ← DeclarativeWorkflow.make entrypoint steps
  let contentDigest ← packageString (getField root "content_digest") "content_digest" 71
  AgentPackage.make sha256
    { packageId, version, runtimeApi, displayEnUs, displayZhTw, promptEnUs, promptZhTw,
      requestedCapabilities, workflow, contentDigest }

end Packages

-- ════════════════════════════════════════════════════════════════════════
-- What the constructor of a package accepts
-- ════════════════════════════════════════════════════════════════════════

def LocalizedDisplay.text (display : LocalizedDisplay) : DisplayText :=
  ⟨.ofString display.name, .ofString display.summary⟩

/-- The arguments that a package is constructed from. -/
def AgentPackage.arguments (p : AgentPackage) : PackageArguments where
  packageId := .ofString p.packageId.val
  version := .ofString p.version
  runtimeApi := .ofString "1"
  displayEnUs := p.displayEnUs.text
  displayZhTw := p.displayZhTw.text
  promptEnUs := .ofString p.promptEnUs
  promptZhTw := .ofString p.promptZhTw
  requestedCapabilities := p.requestedCapabilities.map .ofString
  workflow := p.workflow
  contentDigest := .ofString p.contentDigest.text

namespace AgentPackage

def contentData (p : AgentPackage) : WireJson := p.arguments.contentData

def toData (p : AgentPackage) : WireJson := p.arguments.toData

/-- What the constructor has checked, beside what the type of packages says. -/
structure Constructed (sha256 : List UInt8 → Digest) (p : AgentPackage) : Prop where
  promptEnUs : InertPrompt (.ofString p.promptEnUs)
  promptZhTw : InertPrompt (.ofString p.promptZhTw)
  some_capability : p.requestedCapabilities ≠ [] ∧ p.requestedCapabilities.length ≤ 16
  capabilities_nodup : p.requestedCapabilities.Nodup
  capabilities_allowed : ∀ capability ∈ p.requestedCapabilities, capability ∈ allowedCapabilities
  digest : ∃ content, canonicalJsonBytes p.contentData = .ok content ∧
    p.contentDigest = sha256 content
  size : ∃ bytes, canonicalJsonBytes p.toData = .ok bytes ∧ bytes.length ≤ 65536

/-- The texts of a package are ones that can be read back. -/
structure Exact (p : AgentPackage) : Prop where
  nameEnUs : ExactText (.ofString p.displayEnUs.name) 128
  summaryEnUs : ExactText (.ofString p.displayEnUs.summary) 512
  nameZhTw : ExactText (.ofString p.displayZhTw.name) 128
  summaryZhTw : ExactText (.ofString p.displayZhTw.summary) 512
  promptEnUs : ExactText (.ofString p.promptEnUs) 8192
  promptZhTw : ExactText (.ofString p.promptZhTw) 8192

end AgentPackage

theorem mapM_encode {texts : List PyString} {strings : List String} :
    texts.mapM PyString.encode = some strings ↔ texts = strings.map .ofString := by
  induction texts generalizing strings with
  | nil => cases strings <;> simp
  | cons text texts ih =>
    simp only [List.mapM_cons, Option.bind_eq_bind, Option.bind_eq_some_iff, Option.pure_def,
      Option.some.injEq, PyString.encode_eq_some, ih]
    constructor
    · rintro ⟨s, rfl, ss, rfl, rfl⟩
      rfl
    · intro h
      cases strings with
      | nil => exact absurd h (by simp)
      | cons s ss =>
        obtain ⟨rfl, rfl⟩ := List.cons.inj h
        exact ⟨s, rfl, ss, rfl, rfl⟩

theorem DisplayText.encode?_eq_some {display : DisplayText} {encoded : LocalizedDisplay} :
    display.encode? = some encoded ↔ display = encoded.text := by
  obtain ⟨name, summary⟩ := display
  obtain ⟨n, s⟩ := encoded
  simp only [encode?, Option.bind_eq_bind, Option.bind_eq_some_iff, PyString.encode_eq_some,
    Option.pure_def, Option.some.injEq, LocalizedDisplay.mk.injEq, LocalizedDisplay.text, mk.injEq]
  constructor
  · rintro ⟨_, rfl, _, rfl, rfl, rfl⟩
    exact ⟨rfl, rfl⟩
  · rintro ⟨rfl, rfl⟩
    exact ⟨n, rfl, s, rfl, rfl, rfl⟩

theorem versionOf?_eq_some {s : PyString}
    {version : { version : String // isCanonicalVersion version = true }} :
    versionOf? s = some version ↔ s = .ofString version.val := by
  simp only [versionOf?, Option.bind_eq_some_iff, PyString.encode_eq_some]
  constructor
  · rintro ⟨text, rfl, h⟩
    split at h
    · obtain rfl := Option.some.inj h
      rfl
    · exact absurd h (by simp)
  · rintro rfl
    exact ⟨version.val, rfl, dif_pos version.property⟩

/-- The constructor of a package accepts the arguments of a package it may construct, and no
    others. -/
theorem AgentPackage.make_eq_ok {sha256 : List UInt8 → Digest} {args : PackageArguments}
    {p : AgentPackage} :
    AgentPackage.make sha256 args = .ok p ↔ args = p.arguments ∧ p.Constructed sha256 := by
  simp only [make, bind_eq_ok, require_eq_ok, orFail_eq_ok, exists_const, requireStableText_eq_ok,
    versionOf?_eq_some, Digest.ofText?_eq_some, PackageArguments.package?, Option.bind_eq_bind,
    Option.bind_eq_some_iff, DisplayText.encode?_eq_some, PyString.encode_eq_some, mapM_encode,
    Option.pure_def, Option.some.injEq]
  constructor
  · obtain ⟨_, _, _, _, _, _, _, _, workflow, _⟩ := args
    rintro ⟨packageId, rfl, version, rfl, rfl, hpromptEnUs, hpromptZhTw, hsome, ⟨hnodup, hallowed⟩,
      _, rfl, content, hcontent, rfl, bytes, hbytes, hsize, displayEnUs, rfl, displayZhTw, rfl,
      promptEnUs, rfl, promptZhTw, rfl, capabilities, rfl, rfl⟩
    refine ⟨rfl, hpromptEnUs, hpromptZhTw, ?_, ?_, ?_, ⟨content, hcontent, rfl⟩, bytes, hbytes,
      hsize⟩
    · simpa only [ne_eq, List.map_eq_nil_iff, List.length_map] using hsome
    · exact .of_map _ hnodup
    · intro capability hcapability
      have hmem := hallowed _ (List.mem_map_of_mem hcapability)
      exact (List.mem_map_of_injective PyString.ofString_injective).mp hmem
  · rintro ⟨rfl, hp⟩
    obtain ⟨content, hcontent, hdigest⟩ := hp.digest
    obtain ⟨bytes, hbytes, hsize⟩ := hp.size
    refine ⟨p.packageId, rfl, ⟨p.version, p.version_canonical⟩, rfl, rfl, hp.promptEnUs,
      hp.promptZhTw, ?_, ⟨hp.capabilities_nodup.map PyString.ofString_injective, ?_⟩,
      p.contentDigest, rfl, content, hcontent, hdigest, bytes, hbytes, hsize, p.displayEnUs, rfl,
      p.displayZhTw, rfl, p.promptEnUs, rfl, p.promptZhTw, rfl, p.requestedCapabilities, rfl, rfl⟩
    · simpa only [arguments, ne_eq, List.map_eq_nil_iff, List.length_map] using hp.some_capability
    · intro capability hcapability
      obtain ⟨word, hword, rfl⟩ := List.mem_map.mp hcapability
      exact List.mem_map_of_mem (hp.capabilities_allowed word hword)

-- ════════════════════════════════════════════════════════════════════════
-- The canonical value of a package
-- ════════════════════════════════════════════════════════════════════════

def DisplayText.sorted (display : DisplayText) : List (String × WireJson) :=
  [("name", .str display.name), ("summary", .str display.summary)]

namespace PackageArguments

variable (args : PackageArguments)

def sortedPrompts : List (String × WireJson) :=
  [("en-US", .str args.promptEnUs), ("zh-TW", .str args.promptZhTw)]

def sortedSteps : List WireJson :=
  args.workflow.steps.map fun step => record step.arguments.sorted

def sortedWorkflow : List (String × WireJson) :=
  [("entrypoint", .str (.ofString args.workflow.entrypoint.val)), ("steps", .array args.sortedSteps)]

def sortedContent : List (String × WireJson) :=
  [("prompts", record args.sortedPrompts),
    ("requested_capabilities", .array (args.requestedCapabilities.map .str)),
    ("workflow", record args.sortedWorkflow)]

def sortedDisplay : List (String × WireJson) :=
  [("en-US", record args.displayEnUs.sorted), ("zh-TW", record args.displayZhTw.sorted)]

def sortedMetadata : List (String × WireJson) :=
  [("display", record args.sortedDisplay), ("package_id", .str args.packageId),
    ("runtime_api", .str args.runtimeApi), ("version", .str args.version)]

def sorted : List (String × WireJson) :=
  [("content", record args.sortedContent), ("content_digest", .str args.contentDigest),
    ("metadata", record args.sortedMetadata), ("schema", .str (.ofString "dc-agent/v1")),
    ("schema_version", .int 1)]

end PackageArguments

/-- The keys of every object of a package, sorted. -/
theorem package_keys_sorted :
    ["name", "summary"].Pairwise (· < ·) ∧ ["en-US", "zh-TW"].Pairwise (· < ·) ∧
      ["entrypoint", "steps"].Pairwise (· < ·) ∧
      ["prompts", "requested_capabilities", "workflow"].Pairwise (· < ·) ∧
      ["display", "package_id", "runtime_api", "version"].Pairwise (· < ·) ∧
      ["content", "content_digest", "metadata", "schema", "schema_version"].Pairwise (· < ·) := by
  decide +kernel

namespace PackageArguments

variable (args : PackageArguments)

theorem sortedPrompts_sorted : (args.sortedPrompts.map Prod.fst).Pairwise (· < ·) :=
  package_keys_sorted.2.1

theorem sortedDisplay_sorted : (args.sortedDisplay.map Prod.fst).Pairwise (· < ·) :=
  package_keys_sorted.2.1

theorem sortedWorkflow_sorted : (args.sortedWorkflow.map Prod.fst).Pairwise (· < ·) :=
  package_keys_sorted.2.2.1

theorem sortedContent_sorted : (args.sortedContent.map Prod.fst).Pairwise (· < ·) :=
  package_keys_sorted.2.2.2.1

theorem sortedMetadata_sorted : (args.sortedMetadata.map Prod.fst).Pairwise (· < ·) :=
  package_keys_sorted.2.2.2.2.1

theorem sorted_sorted : (args.sorted.map Prod.fst).Pairwise (· < ·) :=
  package_keys_sorted.2.2.2.2.2

end PackageArguments

theorem package_keys_perm :
    ["package_id", "version", "runtime_api", "display"].Perm
        ["display", "package_id", "runtime_api", "version"] ∧
      ["schema", "schema_version", "metadata", "content", "content_digest"].Perm
        ["content", "content_digest", "metadata", "schema", "schema_version"] := by
  decide

theorem canonicalValue_eq_strings {v : WireJson} {texts : List PyString} :
    canonicalValue v = .ok (.array (texts.map .str)) ↔ v = .array (texts.map .str) := by
  simp only [canonicalValue_eq_array, List.forall₂_map_right_iff, canonicalValue_eq_str]
  constructor
  · rintro ⟨vs, rfl, h⟩
    induction h with
    | nil => rfl
    | cons hhead _ ih => rw [hhead, WireJson.array.inj ih, List.map_cons]
  · rintro rfl
    exact ⟨_, rfl, by rw [List.forall₂_map_left_iff, List.forall₂_same]; exact fun _ _ => rfl⟩

theorem canonicalValue_strings (texts : List PyString) :
    canonicalValue (.array (texts.map .str)) = .ok (.array (texts.map .str)) :=
  canonicalValue_eq_strings.mpr rfl

section Canonical

variable (args : PackageArguments)

theorem DisplayText.canonicalValue_toData (display : DisplayText) :
    canonicalValue display.toData = .ok (record display.sorted) := by
  refine canonicalValue_record package_keys_sorted.1 (.refl _) ?_
  simp [sorted, canonicalValue]

theorem canonicalValue_steps (steps : List WorkflowStep) :
    canonicalValue (.array (steps.map WorkflowStep.toData)) =
      .ok (.array (steps.map fun step => record step.arguments.sorted)) := by
  refine canonicalValue_eq_array.mpr ⟨_, rfl, ?_⟩
  rw [List.forall₂_map_left_iff, List.forall₂_map_right_iff, List.forall₂_same]
  exact fun step _ => step.arguments.canonicalValue_toData

theorem PackageArguments.canonicalValue_contentData :
    canonicalValue args.contentData = .ok (record args.sortedContent) := by
  have hprompts : canonicalValue (record [("en-US", .str args.promptEnUs),
      ("zh-TW", .str args.promptZhTw)]) = .ok (record args.sortedPrompts) := by
    refine canonicalValue_record args.sortedPrompts_sorted (.refl _) ?_
    simp [sortedPrompts, canonicalValue]
  have hworkflow : canonicalValue args.workflowData = .ok (record args.sortedWorkflow) := by
    refine canonicalValue_record args.sortedWorkflow_sorted (.refl _) ?_
    have hsteps := canonicalValue_steps args.workflow.steps
    simp [sortedWorkflow, sortedSteps, canonicalValue, -bind_pure_comp] at hsteps ⊢
    exact hsteps
  refine canonicalValue_record args.sortedContent_sorted (.refl _) ?_
  simp [sortedContent, hprompts, hworkflow, canonicalValue_strings]

theorem PackageArguments.canonicalValue_metadataData :
    canonicalValue args.metadataData = .ok (record args.sortedMetadata) := by
  have hdisplay : canonicalValue (record [("en-US", args.displayEnUs.toData),
      ("zh-TW", args.displayZhTw.toData)]) = .ok (record args.sortedDisplay) := by
    refine canonicalValue_record args.sortedDisplay_sorted (.refl _) ?_
    simp [sortedDisplay, DisplayText.canonicalValue_toData]
  refine canonicalValue_record args.sortedMetadata_sorted package_keys_perm.1 ?_
  simp [sortedMetadata, hdisplay, canonicalValue]

theorem PackageArguments.canonicalValue_toData :
    canonicalValue args.toData = .ok (record args.sorted) := by
  refine canonicalValue_record args.sorted_sorted package_keys_perm.2 ?_
  simp [sorted, canonicalValue_contentData, canonicalValue_metadataData, canonicalValue]

end Canonical

theorem displayKeys_nodup : ["name", "summary"].Nodup := by decide

theorem metadataKeys_nodup : ["package_id", "version", "runtime_api", "display"].Nodup := by decide

theorem contentKeys_nodup : ["prompts", "requested_capabilities", "workflow"].Nodup := by decide

theorem rootKeys_nodup :
    ["schema", "schema_version", "metadata", "content", "content_digest"].Nodup := by decide

/-- The document of a package is one of dictionaries. -/
theorem PackageArguments.uniqueKeys_toData (args : PackageArguments) : args.toData.UniqueKeys := by
  have hstep : ∀ step : StepArguments, step.toData.UniqueKeys := by
    rintro ⟨stepId, stepType, prompt, nextStep, predicate, onTrue, onFalse, effectKind⟩
    have htext : ∀ s : Option PyString, (optionalText s).UniqueKeys := by
      intro s
      cases s <;> trivial
    cases stepType <;>
      simp [StepArguments.toData, uniqueKeys_record, htext, WireJson.UniqueKeys]
  have hsteps : WireJson.UniqueKeysItems (args.workflow.steps.map WorkflowStep.toData) :=
    WireJson.uniqueKeysItems_iff.mpr (List.forall_mem_map.mpr fun step _ => hstep step.arguments)
  have hcapabilities : WireJson.UniqueKeysItems (args.requestedCapabilities.map .str) :=
    WireJson.uniqueKeysItems_iff.mpr (List.forall_mem_map.mpr fun _ _ => trivial)
  have hdisplay : ∀ display : DisplayText, display.toData.UniqueKeys := by
    intro display
    exact uniqueKeys_record.mpr ⟨displayKeys_nodup, by simp [WireJson.UniqueKeys]⟩
  have hmetadata : args.metadataData.UniqueKeys := by
    refine uniqueKeys_record.mpr ⟨metadataKeys_nodup, ?_⟩
    simp [uniqueKeys_record, hdisplay, WireJson.UniqueKeys]
  have hcontent : args.contentData.UniqueKeys := by
    refine uniqueKeys_record.mpr ⟨contentKeys_nodup, ?_⟩
    simp [workflowData, uniqueKeys_record, hsteps, hcapabilities, WireJson.UniqueKeys,
      -List.map_map]
  refine uniqueKeys_record.mpr ⟨rootKeys_nodup, ?_⟩
  simp [hmetadata, hcontent, WireJson.UniqueKeys]

-- ════════════════════════════════════════════════════════════════════════
-- Reading a package
-- ════════════════════════════════════════════════════════════════════════

theorem mapM_eq_ok {α β : Type} {f : α → Outcome β} {l : List α} {m : List β} :
    l.mapM f = .ok m ↔ List.Forall₂ (fun a b => f a = .ok b) l m := by
  induction l generalizing m with
  | nil => rw [List.mapM_nil, pure_eq_ok, List.forall₂_nil_left_iff, eq_comm]
  | cons a l ih =>
    simp only [List.mapM_cons, bind_eq_ok, pure_eq_ok, ih, List.forall₂_cons_left_iff]
    constructor
    · rintro ⟨b, hb, m, hm, rfl⟩
      exact ⟨b, m, hb, hm, rfl⟩
    · rintro ⟨b, m, hb, hm, rfl⟩
      exact ⟨b, hb, m, hm, rfl⟩

theorem uniqueKeys_of_mapping {v : WireJson} {field : String} {keys : List String}
    {entries : List (PyString × WireJson)} (hu : v.UniqueKeys)
    (h : packageMapping v field keys = .ok entries) (name : String) :
    (getField entries name).UniqueKeys := by
  obtain ⟨rfl, _⟩ := packageMapping_eq_ok.mp h
  exact uniqueKeys_getField name hu

theorem localizedDisplay_eq_ok {v : WireJson} (hu : v.UniqueKeys) {locale : String}
    {display : DisplayText} :
    localizedDisplay v locale = .ok display ↔
      canonicalValue v = .ok (record display.sorted) ∧
        ExactText display.name 128 ∧ ExactText display.summary 512 := by
  have hsorted : (display.sorted.map Prod.fst).Pairwise (· < ·) := package_keys_sorted.1
  rw [packageMapping_canonical hu ("metadata.display." ++ locale) hsorted (.refl _)]
  simp only [localizedDisplay, DisplayText.make, bind_eq_ok, packageString_eq_ok, require_eq_ok,
    exists_const, pure_eq_ok, DisplayText.sorted, List.forall_mem_cons, canonicalValue_eq_str]
  constructor
  · rintro ⟨raw, hraw, name, ⟨hname, hnameExact⟩, summary, ⟨hsummary, hsummaryExact⟩, _, _, rfl⟩
    exact ⟨⟨raw, hraw, hname, hsummary, by simp⟩, hnameExact, hsummaryExact⟩
  · rintro ⟨⟨raw, hraw, hname, hsummary, _⟩, hnameExact, hsummaryExact⟩
    exact ⟨raw, hraw, _, ⟨hname, hnameExact⟩, _, ⟨hsummary, hsummaryExact⟩, hnameExact,
      hsummaryExact, rfl⟩

theorem DeclarativeWorkflow.make_eq_ok {entrypoint : PyString} {steps : List WorkflowStep}
    {workflow : DeclarativeWorkflow} :
    DeclarativeWorkflow.make entrypoint steps = .ok workflow ↔
      entrypoint = .ofString workflow.entrypoint.val ∧ steps = workflow.steps := by
  simp only [make, bind_eq_ok, requireStableText_eq_ok]
  constructor
  · rintro ⟨id, rfl, h⟩
    split at h
    · obtain rfl := Except.ok.inj h
      exact ⟨rfl, rfl⟩
    · exact absurd h (by simp)
  · rintro ⟨rfl, rfl⟩
    refine ⟨workflow.entrypoint, rfl, ?_⟩
    split
    · rfl
    · next h => exact absurd (h.symm.trans workflow.checked) (by simp)

theorem capabilities_eq_ok {items : List WireJson} {texts : List PyString} :
    (items.mapM fun item => packageString item "requested capability" 64) = .ok texts ↔
      items = texts.map .str ∧ ∀ text ∈ texts, ExactText text 64 := by
  rw [mapM_eq_ok]
  simp only [packageString_eq_ok]
  constructor
  · intro h
    induction h with
    | nil => exact ⟨rfl, by simp⟩
    | cons hhead _ ih => exact ⟨by rw [hhead.1, ih.1]; rfl, List.forall_mem_cons.mpr ⟨hhead.2, ih.2⟩⟩
  · rintro ⟨rfl, hall⟩
    rw [List.forall₂_map_left_iff, List.forall₂_same]
    exact fun text htext => ⟨rfl, hall text htext⟩

/-- The items that are read as steps are those with their canonical values. -/
theorem steps_eq_ok {items : List WireJson} (hu : ∀ item ∈ items, item.UniqueKeys)
    {steps : List WorkflowStep} :
    items.mapM workflowStep = .ok steps ↔ canonicalValue (.array items) =
      .ok (.array (steps.map fun step => record step.arguments.sorted)) := by
  rw [mapM_eq_ok, canonicalValue_eq_array]
  simp only [WireJson.array.injEq, exists_eq_left', List.forall₂_map_right_iff]
  induction items generalizing steps with
  | nil => rw [List.forall₂_nil_left_iff, List.forall₂_nil_left_iff]
  | cons item items ih =>
    obtain ⟨hitem, hitems⟩ := List.forall_mem_cons.mp hu
    simp only [List.forall₂_cons_left_iff, ih hitems, workflowStep_eq_ok hitem,
      WorkflowStep.toData, StepArguments.canonicalValue_toData]

/-- A word that a package may ask for is accepted by `_string`. -/
theorem exactText_capability : ∀ w ∈ allowedCapabilities, ExactText (.ofString w) 64 := by
  decide +kernel

theorem exactText_runtimeApi : ExactText (.ofString "1") 16 := by decide +kernel

section Reading

variable {sha256 : List UInt8 → Digest} {v : WireJson} {p : AgentPackage}

theorem WireJson.int?_eq_some {n : ℤ} : v.int? = some n ↔ v = .int n := by
  cases v <;> simp [WireJson.int?]

/-- A document that is read as a package has the canonical value of the package. -/
theorem canonicalValue_of_agentPackageFromMapping (hu : v.UniqueKeys)
    (h : agentPackageFromMapping sha256 v = .ok p) :
    p.Constructed sha256 ∧ p.Exact ∧ canonicalValue v = canonicalValue p.toData := by
  simp only [agentPackageFromMapping, bind_eq_ok, require_eq_ok, exists_const,
    WireJson.str?_eq_some, WireJson.int?_eq_some, packageSequence_eq_ok, packageString_eq_ok,
    capabilities_eq_ok, DeclarativeWorkflow.make_eq_ok, AgentPackage.make_eq_ok] at h
  obtain ⟨root, hroot, hschema, hversion, metadata, hmetadata, display, hdisplay, content, hcontent,
    prompts, hprompts, values, hvalues, capabilities, ⟨rfl, _⟩, workflow, hworkflow, items, hitems,
    steps, hsteps, packageId, ⟨hpackageId, _⟩, version, ⟨hpackageVersion, _⟩, runtimeApi,
    ⟨hruntimeApi, _⟩, displayEnUs, hdisplayEnUs, displayZhTw, hdisplayZhTw, promptEnUs,
    ⟨hpromptEnUs, hexactEnUs⟩, promptZhTw, ⟨hpromptZhTw, hexactZhTw⟩, entrypoint,
    ⟨hentrypoint, _⟩, checked, ⟨rfl, rfl⟩, contentDigest, ⟨hcontentDigest, _⟩, hargs,
    hconstructed⟩ := h
  -- below, every object is one of a `dict`
  have hru := uniqueKeys_of_mapping hu hroot
  have hmu := uniqueKeys_of_mapping (hru "metadata") hmetadata
  have hdu := uniqueKeys_of_mapping (hmu "display") hdisplay
  have hcu := uniqueKeys_of_mapping (hru "content") hcontent
  have hwu := uniqueKeys_of_mapping (hcu "workflow") hworkflow
  have hiu : ∀ item ∈ items, item.UniqueKeys := by
    have hunique := hwu "steps"
    rw [hitems] at hunique
    exact WireJson.uniqueKeysItems_iff.mp hunique
  rw [localizedDisplay_eq_ok (hdu _)] at hdisplayEnUs hdisplayZhTw
  rw [steps_eq_ok hiu, ← hitems] at hsteps
  simp only [AgentPackage.arguments, PackageArguments.mk.injEq] at hargs
  obtain ⟨rfl, rfl, rfl, rfl, rfl, rfl, rfl, rfl, rfl, rfl⟩ := hargs
  refine ⟨hconstructed, ⟨hdisplayEnUs.2.1, hdisplayEnUs.2.2, hdisplayZhTw.2.1, hdisplayZhTw.2.2,
    hexactEnUs, hexactZhTw⟩, ?_⟩
  have hprompts := (packageMapping_canonical (hcu "prompts") "content.prompts"
    p.arguments.sortedPrompts_sorted (.refl _)).mpr ⟨prompts, hprompts, by
      simp [PackageArguments.sortedPrompts, AgentPackage.arguments, hpromptEnUs, hpromptZhTw,
        canonicalValue]⟩
  have hworkflow := (packageMapping_canonical (hcu "workflow") "workflow"
    p.arguments.sortedWorkflow_sorted (.refl _)).mpr ⟨workflow, hworkflow, by
      simp [PackageArguments.sortedWorkflow, PackageArguments.sortedSteps, AgentPackage.arguments,
        hentrypoint, hsteps, canonicalValue]⟩
  have hcontent := (packageMapping_canonical (hru "content") "content"
    p.arguments.sortedContent_sorted (.refl _)).mpr ⟨content, hcontent, by
      simp [PackageArguments.sortedContent, hprompts, hworkflow, hvalues, AgentPackage.arguments,
        canonicalValue_strings, -List.map_map]⟩
  have hdisplay := (packageMapping_canonical (hmu "display") "metadata.display"
    p.arguments.sortedDisplay_sorted (.refl _)).mpr ⟨display, hdisplay, by
      simp [PackageArguments.sortedDisplay, AgentPackage.arguments, hdisplayEnUs.1,
        hdisplayZhTw.1]⟩
  have hmetadata := (packageMapping_canonical (hru "metadata") "metadata"
    p.arguments.sortedMetadata_sorted package_keys_perm.1).mpr ⟨metadata, hmetadata, by
      simp [PackageArguments.sortedMetadata, AgentPackage.arguments, hdisplay, hpackageId,
        hpackageVersion, hruntimeApi, canonicalValue]⟩
  rw [AgentPackage.toData, PackageArguments.canonicalValue_toData]
  refine (packageMapping_canonical hu "AgentPackage" p.arguments.sorted_sorted
    package_keys_perm.2).mpr ⟨root, hroot, ?_⟩
  simp [PackageArguments.sorted, hcontent, hmetadata, hschema, hversion, AgentPackage.arguments,
    hcontentDigest, canonicalValue]

/-- A document with the canonical value of a package that can be read back is read as it. -/
theorem agentPackageFromMapping_of_canonicalValue (hu : v.UniqueKeys)
    (hconstructed : p.Constructed sha256) (hexact : p.Exact)
    (h : canonicalValue v = canonicalValue p.toData) :
    agentPackageFromMapping sha256 v = .ok p := by
  rw [AgentPackage.toData, PackageArguments.canonicalValue_toData] at h
  obtain ⟨root, hroot, hfields⟩ := (packageMapping_canonical hu "AgentPackage"
    p.arguments.sorted_sorted package_keys_perm.2).mp h
  simp only [PackageArguments.sorted, List.forall_mem_cons, canonicalValue_eq_str,
    canonicalValue_eq_int] at hfields
  obtain ⟨hcontent, hcontentDigest, hmetadata, hschema, hversion, _⟩ := hfields
  have hru := uniqueKeys_of_mapping hu hroot
  obtain ⟨content, hcontent, hfields⟩ := (packageMapping_canonical (hru "content") "content"
    p.arguments.sortedContent_sorted (.refl _)).mp hcontent
  simp only [PackageArguments.sortedContent, List.forall_mem_cons] at hfields
  obtain ⟨hprompts, hvalues, hworkflow, _⟩ := hfields
  have hcu := uniqueKeys_of_mapping (hru "content") hcontent
  have hvalues := canonicalValue_eq_strings.mp hvalues
  obtain ⟨prompts, hprompts, hfields⟩ := (packageMapping_canonical (hcu "prompts")
    "content.prompts" p.arguments.sortedPrompts_sorted (.refl _)).mp hprompts
  simp only [PackageArguments.sortedPrompts, List.forall_mem_cons, canonicalValue_eq_str] at hfields
  obtain ⟨hpromptEnUs, hpromptZhTw, _⟩ := hfields
  obtain ⟨workflow, hworkflow, hfields⟩ := (packageMapping_canonical (hcu "workflow") "workflow"
    p.arguments.sortedWorkflow_sorted (.refl _)).mp hworkflow
  simp only [PackageArguments.sortedWorkflow, List.forall_mem_cons, canonicalValue_eq_str]
    at hfields
  obtain ⟨hentrypoint, hsteps, _⟩ := hfields
  have hwu := uniqueKeys_of_mapping (hcu "workflow") hworkflow
  obtain ⟨items, hitems, hall⟩ := canonicalValue_eq_array.mp hsteps
  have hiu : ∀ item ∈ items, item.UniqueKeys := by
    have hunique := hwu "steps"
    rw [hitems] at hunique
    exact WireJson.uniqueKeysItems_iff.mp hunique
  have hsteps := (steps_eq_ok hiu).mpr (canonicalValue_eq_array.mpr ⟨items, rfl, hall⟩)
  obtain ⟨metadata, hmetadata, hfields⟩ := (packageMapping_canonical (hru "metadata") "metadata"
    p.arguments.sortedMetadata_sorted package_keys_perm.1).mp hmetadata
  simp only [PackageArguments.sortedMetadata, List.forall_mem_cons, canonicalValue_eq_str]
    at hfields
  obtain ⟨hdisplay, hpackageId, hruntimeApi, hpackageVersion, _⟩ := hfields
  have hmu := uniqueKeys_of_mapping (hru "metadata") hmetadata
  obtain ⟨display, hdisplay, hfields⟩ := (packageMapping_canonical (hmu "display")
    "metadata.display" p.arguments.sortedDisplay_sorted (.refl _)).mp hdisplay
  simp only [PackageArguments.sortedDisplay, List.forall_mem_cons] at hfields
  obtain ⟨hdisplayEnUs, hdisplayZhTw, _⟩ := hfields
  have hdu := uniqueKeys_of_mapping (hmu "display") hdisplay
  have hdisplayEnUs : localizedDisplay (getField display "en-US") "en-US" =
      .ok p.displayEnUs.text :=
    (localizedDisplay_eq_ok (hdu _)).mpr ⟨hdisplayEnUs, hexact.nameEnUs, hexact.summaryEnUs⟩
  have hdisplayZhTw : localizedDisplay (getField display "zh-TW") "zh-TW" =
      .ok p.displayZhTw.text :=
    (localizedDisplay_eq_ok (hdu _)).mpr ⟨hdisplayZhTw, hexact.nameZhTw, hexact.summaryZhTw⟩
  have hcapabilities : ∀ text ∈ p.arguments.requestedCapabilities, ExactText text 64 := by
    intro text htext
    obtain ⟨word, hword, rfl⟩ := List.mem_map.mp htext
    exact exactText_capability word (hconstructed.capabilities_allowed word hword)
  simp only [agentPackageFromMapping, bind_eq_ok, require_eq_ok, exists_const,
    WireJson.str?_eq_some, WireJson.int?_eq_some, packageSequence_eq_ok, packageString_eq_ok,
    capabilities_eq_ok, DeclarativeWorkflow.make_eq_ok, AgentPackage.make_eq_ok]
  exact ⟨root, hroot, hschema, hversion, metadata, hmetadata, display, hdisplay, content, hcontent,
    prompts, hprompts, _, hvalues, _, ⟨rfl, hcapabilities⟩, workflow, hworkflow, items, hitems, _,
    hsteps, _, ⟨hpackageId, exactText_stableId p.packageId⟩, _,
    ⟨hpackageVersion, exactText_version p.version_canonical⟩, _,
    ⟨hruntimeApi, exactText_runtimeApi⟩, _, hdisplayEnUs, _, hdisplayZhTw, _,
    ⟨hpromptEnUs, hexact.promptEnUs⟩, _, ⟨hpromptZhTw, hexact.promptZhTw⟩, _,
    ⟨hentrypoint, exactText_stableId p.workflow.entrypoint⟩, p.workflow, ⟨rfl, rfl⟩, _,
    ⟨hcontentDigest, exactText_digest p.contentDigest⟩, rfl, hconstructed⟩

/-- The documents that are read as a package, in both directions: those with the canonical
    value of a package whose constructor accepts it and whose texts can be read back. -/
theorem agentPackageFromMapping_exact (hu : v.UniqueKeys) :
    agentPackageFromMapping sha256 v = .ok p ↔
      p.Constructed sha256 ∧ p.Exact ∧ canonicalValue v = canonicalValue p.toData :=
  ⟨canonicalValue_of_agentPackageFromMapping hu,
    fun h => agentPackageFromMapping_of_canonicalValue hu h.1 h.2.1 h.2.2⟩

end Reading

-- ════════════════════════════════════════════════════════════════════════
-- A package
-- ════════════════════════════════════════════════════════════════════════

theorem isCanonicalVersion_sample : isCanonicalVersion "1.2.0" = true := by decide

/-- The digest in a package is the one of its content. -/
def AgentPackage.HasDigest (sha256 : List UInt8 → Digest) (p : AgentPackage) : Prop :=
  ∀ content, canonicalJsonBytes p.contentData = .ok content → sha256 content = p.contentDigest

/-- A package that is written out. -/
theorem AgentPackage.HasDigest.constructed {sha256 : List UInt8 → Digest} {p : AgentPackage}
    (hdigest : p.HasDigest sha256)
    (hprompts : InertPrompt (.ofString p.promptEnUs) ∧ InertPrompt (.ofString p.promptZhTw))
    (hsome : p.requestedCapabilities ≠ [] ∧ p.requestedCapabilities.length ≤ 16)
    (hnodup : p.requestedCapabilities.Nodup)
    (hallowed : ∀ capability ∈ p.requestedCapabilities, capability ∈ allowedCapabilities)
    (hcontent : (canonicalJsonBytes p.contentData).toOption.isSome = true)
    (hsize : (canonicalJsonBytes p.toData).toOption.any (fun bytes => bytes.length ≤ 65536) = true) :
    p.Constructed sha256 := by
  obtain ⟨content, hcontent⟩ := Option.isSome_iff_exists.mp hcontent
  have hcontent := toOption_eq_some.mp hcontent
  obtain ⟨bytes, hbytes, hlength⟩ := (Option.any_eq_true _ _).mp hsize
  exact ⟨hprompts.1, hprompts.2, hsome, hnodup, hallowed,
    ⟨content, hcontent, (hdigest content hcontent).symm⟩,
    ⟨bytes, toOption_eq_some.mp hbytes, of_decide_eq_true hlength⟩⟩

/-- A small package. -/
def sampleFormatPackage : AgentPackage where
  packageId := stableId "notes"
  version := "1.2.0"
  displayEnUs := ⟨"Notes", "Keeps notes."⟩
  displayZhTw := ⟨"筆記", "記錄筆記。"⟩
  promptEnUs := "Keep \"notes\"."
  promptZhTw := "記錄筆記。"
  requestedCapabilities := ["read_work"]
  workflow := ⟨stableId "done", _, checkWorkflow_completeStep _⟩
  contentDigest := 0x64f11019eaa0750f059090301d2cd01b6201999fd6dc641ab662721f33d5d354
  version_canonical := isCanonicalVersion_sample

theorem constructed_sample {sha256 : List UInt8 → Digest}
    (h : sampleFormatPackage.HasDigest sha256) : sampleFormatPackage.Constructed sha256 :=
  h.constructed (by decide +kernel) (by decide) (by decide) (by decide) (by decide +kernel)
    (by decide +kernel)

theorem exact_sample : sampleFormatPackage.Exact := by constructor <;> decide +kernel

/-- The digest of the content of the small package. -/
def sampleSha256 (bytes : List UInt8) : Digest :=
  if canonicalJsonBytes sampleFormatPackage.contentData = .ok bytes then
    sampleFormatPackage.contentDigest
  else 0

theorem hasDigest_sample : sampleFormatPackage.HasDigest sampleSha256 := fun _ hcontent =>
  if_pos hcontent

theorem agentPackageFromMapping_exact_sample :
    sampleFormatPackage.toData.UniqueKeys ∧
      agentPackageFromMapping sampleSha256 sampleFormatPackage.toData = .ok sampleFormatPackage :=
  have hu := sampleFormatPackage.arguments.uniqueKeys_toData
  ⟨hu, (agentPackageFromMapping_exact hu).mpr
    ⟨constructed_sample hasDigest_sample, exact_sample, rfl⟩⟩

end DigitalColleagues
