import Mathlib.Data.List.DropRight
import Mathlib.Data.Rat.Defs
import Mathlib.Data.String.Basic
import Mathlib.Order.Basic
import Mathlib.Tactic.Common

/-!
# Shared values of the core

Stable identifiers, instants, digests, frozen JSON objects, the failures the
application raises, and the small `Except` vocabulary in which every operation
of the store is written.
-/

namespace DigitalColleagues

-- ════════════════════════════════════════════════════════════════════════
-- Failures
-- ════════════════════════════════════════════════════════════════════════

/-- The exception classes of `core.errors` and `application.errors` with their text,
    and the violations of a constraint that the database reports, the last with
    the table that it names. -/
inductive Failure
  | coreInvariant (message : String)
  | namespaceMismatch (message : String)
  | revisionMismatch (message : String)
  | authorization (message : String)
  | replay (message : String)
  | lifecycle (message : String)
  | notFound (message : String)
  | conflict (message : String)
  | staleConflict (message : String)
  | replayConflict (message : String)
  | permissionDenied (message : String)
  | validation (message : String)
  | persistence (message : String)
  | integrity
  | constraint (table : String)
deriving DecidableEq, Repr

/-- An operation: a result, or the failure whose transaction rolls back. -/
abbrev Outcome (α : Type*) := Except Failure α

/-- `if not c: raise e`. -/
def require (c : Prop) [Decidable c] (e : Failure) : Outcome Unit :=
  if c then .ok () else .error e

/-- The value of a lookup, or the failure raised when nothing was found. -/
def orFail {α : Type*} (o : Option α) (e : Failure) : Outcome α :=
  match o with
  | some a => .ok a
  | none => .error e

@[simp] theorem require_eq_ok {c : Prop} [Decidable c] {e : Failure} {u : Unit} :
    require c e = .ok u ↔ c := by
  unfold require
  split <;> simp_all

@[simp] theorem orFail_eq_ok {α : Type*} {o : Option α} {e : Failure} {a : α} :
    orFail o e = .ok a ↔ o = some a := by
  cases o <;> simp [orFail]

@[simp] theorem toOption_eq_some {α : Type*} {x : Outcome α} {a : α} :
    x.toOption = some a ↔ x = .ok a := by
  cases x <;> simp [Except.toOption]

/-- A sequence succeeds exactly when both of its parts do. -/
theorem bind_eq_ok {α β : Type} {x : Outcome α} {f : α → Outcome β} {b : β} :
    (x >>= f) = .ok b ↔ ∃ a, x = .ok a ∧ f a = .ok b := by
  cases x <;> simp [bind, Except.bind]

@[simp] theorem pure_eq_ok {α : Type*} {a b : α} :
    (pure a : Outcome α) = .ok b ↔ a = b := by
  simp [pure, Except.pure]

@[simp] theorem throw_ne_ok {α : Type*} {e : Failure} {a : α} :
    (throw e : Outcome α) = .ok a ↔ False := by
  simp [throw, throwThe, MonadExceptOf.throw]

instance {α : Type*} (x : Outcome α) (p : α → Prop) [DecidablePred p] :
    Decidable (∀ a, x = .ok a → p a) :=
  match x with
  | .ok a => decidable_of_iff (p a) (by simp)
  | .error _ => .isTrue (by simp)

-- ════════════════════════════════════════════════════════════════════════
-- Identifiers, instants and digests
-- ════════════════════════════════════════════════════════════════════════

def isIdStart (c : Char) : Bool :=
  ('a' ≤ c && c ≤ 'z') || ('0' ≤ c && c ≤ '9')

def isIdPart (c : Char) : Bool :=
  isIdStart c || c == '.' || c == '_' || c == ':' || c == '-'

/-- The pattern `[a-z0-9][a-z0-9._:-]{0,127}`. -/
def isStableId (value : String) : Bool :=
  match value.toList with
  | [] => false
  | c :: cs => isIdStart c && cs.all isIdPart && decide (cs.length ≤ 127)

/-- An explicit, storage-neutral stable string identifier. -/
abbrev StableId := { value : String // isStableId value = true }

instance instLawfulBEqStableId : LawfulBEq StableId := inferInstance

/-- An identifier given by its text. -/
def stableId (value : String) (h : isStableId value = true := by exact Eq.refl true) : StableId :=
  ⟨value, h⟩

def requireStableId (value field : String) : Outcome StableId :=
  if h : isStableId value = true then .ok ⟨value, h⟩
  else .error (.coreInvariant (field ++ " must be an explicit stable string ID"))

/-- A UTC timestamp in microseconds. Its stored text has a fixed width, so the
    order of the texts is the order of the instants. -/
abbrev Instant := ℤ

/-- A lowercase SHA-256 digest, `sha256:` and 64 hexadecimal digits. -/
abbrev Digest := Fin (2 ^ 256)

theorem digests_ne_zero : 2 ^ 256 ≠ 0 := by decide

instance instNeZeroDigest : @NeZero ℕ ⟨0⟩ (2 ^ 256) := ⟨digests_ne_zero⟩

-- ════════════════════════════════════════════════════════════════════════
-- Text
-- ════════════════════════════════════════════════════════════════════════

/-- The characters `str.strip` removes. -/
def isSpace (c : Char) : Bool :=
  c.toNat ∈ [0x09, 0x0a, 0x0b, 0x0c, 0x0d, 0x1c, 0x1d, 0x1e, 0x1f, 0x20, 0x85, 0xa0, 0x1680,
    0x2000, 0x2001, 0x2002, 0x2003, 0x2004, 0x2005, 0x2006, 0x2007, 0x2008, 0x2009, 0x200a,
    0x2028, 0x2029, 0x202f, 0x205f, 0x3000]

def strip (s : String) : String :=
  String.ofList ((s.toList.dropWhile isSpace).reverse.dropWhile isSpace).reverse

/-- Stripping the end leaves a stripped start. -/
theorem dropWhile_rdropWhile {α : Type} {p : α → Bool} {l : List α} (h : l.dropWhile p = l) :
    (l.rdropWhile p).dropWhile p = l.rdropWhile p := by
  rw [List.dropWhile_eq_self_iff] at h ⊢
  intro hpos
  rw [(List.rdropWhile_prefix p l).getElem hpos]
  exact h _

@[simp] theorem strip_strip (s : String) : strip (strip s) = strip s := by
  have hleft := dropWhile_rdropWhile (List.dropWhile_idempotent isSpace s.toList)
  have hright := List.rdropWhile_idempotent isSpace (s.toList.dropWhile isSpace)
  show String.ofList (((String.ofList ((s.toList.dropWhile isSpace).rdropWhile
    isSpace)).toList.dropWhile isSpace).rdropWhile isSpace) =
      String.ofList ((s.toList.dropWhile isSpace).rdropWhile isSpace)
  rw [String.toList_ofList, hleft, hright]

/-- A stripped, non-empty and bounded string. -/
def requireText (value field : String) (maximum : ℕ) : Outcome String :=
  if strip value = "" ∨ maximum < (strip value).length then
    .error (.coreInvariant (field ++ " must be non-empty and bounded"))
  else .ok (strip value)

-- ════════════════════════════════════════════════════════════════════════
-- Frozen JSON
-- ════════════════════════════════════════════════════════════════════════

/-- A JSON-compatible tree; finite floats are rationals. -/
inductive Json
  | null
  | bool (value : Bool)
  | int (value : ℤ)
  | float (value : ℚ)
  | str (value : String)
  | array (items : List Json)
  | object (entries : List (String × Json))

namespace Json

/-- The number a Python value compares as. -/
def number? : Json → Option ℚ
  | bool b => some (if b then 1 else 0)
  | int n => some n
  | float q => some q
  | _ => none

mutual

/-- Python's `==`: booleans, integers and floats compare by value. -/
def pyEq : Json → Json → Bool
  | null, null => true
  | str a, str b => a == b
  | array xs, array ys => pyEqItems xs ys
  | object xs, object ys => pyEqEntries xs ys
  | a, b =>
    match a.number?, b.number? with
    | some p, some q => p == q
    | _, _ => false

def pyEqItems : List Json → List Json → Bool
  | [], [] => true
  | x :: xs, y :: ys => pyEq x y && pyEqItems xs ys
  | _, _ => false

def pyEqEntries : List (String × Json) → List (String × Json) → Bool
  | [], [] => true
  | (k, x) :: xs, (l, y) :: ys => k == l && pyEq x y && pyEqEntries xs ys
  | _, _ => false

end

end Json

/-- A sorted immutable JSON object with unique keys. -/
structure FrozenJsonObject where
  entries : List (String × Json)
  sorted : (entries.map Prod.fst).Pairwise (· < ·)

namespace FrozenJsonObject

def empty : FrozenJsonObject := ⟨[], by simp⟩

def get (o : FrozenJsonObject) (k : String) : Option Json :=
  (o.entries.find? fun e => decide (e.1 = k)).map Prod.snd

def pyEq (a b : FrozenJsonObject) : Bool :=
  Json.pyEqEntries a.entries b.entries

end FrozenJsonObject

end DigitalColleagues
