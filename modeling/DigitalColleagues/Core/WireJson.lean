import DigitalColleagues.Core.Common
import Mathlib.Data.List.Lex
import Mathlib.Data.List.Sort

/-!
# JSON as it arrives

A Python string is a sequence of code points in which lone surrogates may occur,
and a parsed JSON document is a tree over such strings. Freezing strips and sorts
the keys of a tree at every depth; encoding as UTF-8 fails on a surrogate.

## Main definitions

- `PyString`, `WireJson` — strings and parsed documents
- `WireJson.freeze`, `WireJson.fromMapping` — `freeze_json` and `from_mapping`
- `WireJson.encode` — the tree over proper text, if there is one
- `WireJson.anyKey` — some key at some depth satisfies a test
-/

namespace DigitalColleagues

-- ════════════════════════════════════════════════════════════════════════
-- Strings
-- ════════════════════════════════════════════════════════════════════════

abbrev CodePoint := Fin 0x110000

/-- A Python `str`; its order is the one of `<` on strings. -/
abbrev PyString := List CodePoint

instance instLawfulBEqPyString : LawfulBEq PyString := inferInstance

namespace CodePoint

def ofChar (c : Char) : CodePoint :=
  ⟨c.toNat, by
    have hvalid := c.valid
    simp only [UInt32.isValidChar, Nat.isValidChar] at hvalid
    show c.val.toNat < 0x110000
    omega⟩

/-- The character of a code point, unless it is a surrogate. -/
def toChar? (c : CodePoint) : Option Char :=
  if h : c.val.isValidChar then some (Char.ofNatAux c.val h) else none

def isSpace (c : CodePoint) : Bool :=
  c.val ∈ [0x09, 0x0a, 0x0b, 0x0c, 0x0d, 0x1c, 0x1d, 0x1e, 0x1f, 0x20, 0x85, 0xa0, 0x1680,
    0x2000, 0x2001, 0x2002, 0x2003, 0x2004, 0x2005, 0x2006, 0x2007, 0x2008, 0x2009, 0x200a,
    0x2028, 0x2029, 0x202f, 0x205f, 0x3000]

theorem toChar?_eq_some {c : CodePoint} {d : Char} : c.toChar? = some d ↔ ofChar d = c := by
  constructor
  · intro h
    by_cases hvalid : c.val.isValidChar
    · rw [toChar?, dif_pos hvalid] at h
      obtain rfl := Option.some.inj h
      rfl
    · rw [toChar?, dif_neg hvalid] at h
      exact absurd h (by simp)
  · rintro rfl
    have hvalid : (ofChar d).val.isValidChar := d.valid
    rw [toChar?, dif_pos hvalid]
    rfl

theorem ofChar_injective : Function.Injective ofChar := by
  intro c d h
  exact Option.some.inj ((toChar?_eq_some.mpr rfl).symm.trans (toChar?_eq_some.mpr h.symm))

theorem ofChar_lt {c d : Char} : ofChar c < ofChar d ↔ c < d := Iff.rfl

/-- White space is proper text. -/
theorem toChar?_isSome_of_isSpace {c : CodePoint} (h : c.isSpace = true) :
    c.toChar?.isSome = true := by
  have hvalid : c.val.isValidChar := by
    simp only [isSpace, decide_eq_true_eq, List.mem_cons, List.not_mem_nil, or_false] at h
    simp only [Nat.isValidChar]
    omega
  rw [toChar?, dif_pos hvalid]
  rfl

end CodePoint

namespace PyString

def ofString (s : String) : PyString := s.toList.map CodePoint.ofChar

/-- The text of a string, unless a lone surrogate occurs in it. -/
def encode (s : PyString) : Option String := (s.mapM CodePoint.toChar?).map String.ofList

/-- `str.strip`. -/
def strip (s : PyString) : PyString :=
  ((s.dropWhile CodePoint.isSpace).reverse.dropWhile CodePoint.isSpace).reverse

@[simp] theorem strip_strip (s : PyString) : strip (strip s) = strip s := by
  have hleft := dropWhile_rdropWhile (List.dropWhile_idempotent CodePoint.isSpace s)
  have hright := List.rdropWhile_idempotent CodePoint.isSpace (s.dropWhile CodePoint.isSpace)
  show (((s.dropWhile CodePoint.isSpace).rdropWhile CodePoint.isSpace).dropWhile
    CodePoint.isSpace).rdropWhile CodePoint.isSpace =
      (s.dropWhile CodePoint.isSpace).rdropWhile CodePoint.isSpace
  rw [hleft, hright]

theorem mapM_toChar?_eq_some {s : PyString} {cs : List Char} :
    s.mapM CodePoint.toChar? = some cs ↔ cs.map CodePoint.ofChar = s := by
  induction s generalizing cs with
  | nil => cases cs <;> simp
  | cons c s ih =>
    constructor
    · intro h
      simp only [List.mapM_cons, Option.bind_eq_bind, Option.bind_eq_some_iff, Option.pure_def,
        Option.some.injEq] at h
      obtain ⟨d, hd, ds, hds, rfl⟩ := h
      rw [List.map_cons, CodePoint.toChar?_eq_some.mp hd, ih.mp hds]
    · intro h
      cases cs with
      | nil => exact absurd h (by simp)
      | cons d ds =>
        obtain ⟨rfl, hds⟩ := List.cons.inj h
        simp only [List.mapM_cons, Option.bind_eq_bind, CodePoint.toChar?_eq_some.mpr rfl,
          ih.mpr hds, Option.bind_some, Option.pure_def]

theorem encode_eq_some {s : PyString} {t : String} : s.encode = some t ↔ ofString t = s := by
  simp only [encode, Option.map_eq_some_iff, mapM_toChar?_eq_some, ofString]
  constructor
  · rintro ⟨cs, hcs, rfl⟩
    rw [String.toList_ofList, hcs]
  · intro h
    exact ⟨t.toList, h, String.ofList_toList⟩

@[simp] theorem encode_ofString (t : String) : (ofString t).encode = some t :=
  encode_eq_some.mpr rfl

theorem ofString_injective : Function.Injective ofString := by
  intro a b h
  exact Option.some.inj ((encode_ofString a).symm.trans (h ▸ encode_ofString b))

/-- Text has the order of its code points. -/
theorem ofString_lt {a b : String} : ofString a < ofString b ↔ a < b := by
  rw [String.lt_iff_toList_lt, ofString, ofString]
  generalize a.toList = cs
  generalize b.toList = ds
  induction cs generalizing ds with
  | nil => cases ds <;> simp
  | cons c cs ih =>
    cases ds with
    | nil => simp
    | cons d ds =>
      rw [List.map_cons, List.map_cons, List.cons_lt_cons_iff, List.cons_lt_cons_iff, ih,
        CodePoint.ofChar_lt, CodePoint.ofChar_injective.eq_iff]

/-- A surrogate-free string, by its code points. -/
theorem encode_isSome {s : PyString} :
    s.encode.isSome = s.all fun c => c.toChar?.isSome := by
  rw [encode, Option.isSome_map]
  induction s with
  | nil => rfl
  | cons c s ih =>
    rw [List.mapM_cons, List.all_cons, ← ih]
    cases c.toChar? with
    | none => rfl
    | some d => cases s.mapM CodePoint.toChar? <;> rfl

/-- Stripping removes white space only, so it neither adds nor removes a surrogate. -/
theorem encode_strip_isSome (s : PyString) : (strip s).encode.isSome = s.encode.isSome := by
  have hdrop : ∀ l : PyString, (l.dropWhile CodePoint.isSpace).all (fun c => c.toChar?.isSome) =
      l.all fun c => c.toChar?.isSome := by
    intro l
    induction l with
    | nil => rfl
    | cons c l ih =>
      by_cases hc : c.isSpace = true
      · rw [List.dropWhile_cons_of_pos hc, ih, List.all_cons,
          CodePoint.toChar?_isSome_of_isSpace hc, Bool.true_and]
      · rw [List.dropWhile_cons_of_neg hc]
  rw [encode_isSome, encode_isSome, strip, List.all_reverse, hdrop, List.all_reverse, hdrop]

end PyString

-- ════════════════════════════════════════════════════════════════════════
-- Documents
-- ════════════════════════════════════════════════════════════════════════

/-- A parsed JSON document; a number too large for a float is not finite. -/
inductive WireJson
  | null
  | bool (value : Bool)
  | int (value : ℤ)
  | float (value : ℚ)
  | nonFinite
  | str (value : PyString)
  | array (items : List WireJson)
  | object (entries : List (PyString × WireJson))

namespace WireJson

/-- The checks that `FrozenJsonObject` makes on one key. -/
def freezeKey (key : PyString) : Outcome PyString := do
  require (PyString.strip key ≠ [] ∧ (PyString.strip key).length ≤ 256)
    (.coreInvariant "JSON object key must be non-empty and bounded")
  pure (PyString.strip key)

/-- Sorted entries, whose keys must be unique. -/
def sortEntries (entries : List (PyString × WireJson)) : Outcome (List (PyString × WireJson)) := do
  let sorted := entries.insertionSort fun a b => a.1 ≤ b.1
  require (sorted.map Prod.fst).Nodup (.coreInvariant "JSON object keys must be unique")
  pure sorted

mutual

/-- `freeze_json`. -/
def freeze : WireJson → Outcome WireJson
  | .nonFinite => .error (.coreInvariant "JSON numbers must be finite")
  | .array items => do
    let items ← freezeItems items
    pure (.array items)
  | .object entries => do
    let entries ← freezeEntries entries
    let entries ← sortEntries entries
    pure (.object entries)
  | .null => pure .null
  | .bool b => pure (.bool b)
  | .int n => pure (.int n)
  | .float q => pure (.float q)
  | .str s => pure (.str s)

def freezeItems : List WireJson → Outcome (List WireJson)
  | [] => pure []
  | v :: vs => do
    let w ← freeze v
    let ws ← freezeItems vs
    pure (w :: ws)

def freezeEntries : List (PyString × WireJson) → Outcome (List (PyString × WireJson))
  | [] => pure []
  | (k, v) :: entries => do
    let key ← freezeKey k
    let w ← freeze v
    let rest ← freezeEntries entries
    pure ((key, w) :: rest)

end

/-- `FrozenJsonObject.from_mapping`, as the entries of the object. -/
def fromMapping (entries : List (PyString × WireJson)) : Outcome (List (PyString × WireJson)) := do
  let entries ← freezeEntries entries
  sortEntries entries

mutual

/-- The tree over proper text; there is none when a surrogate occurs. -/
def encode : WireJson → Option Json
  | .null => some .null
  | .bool b => some (.bool b)
  | .int n => some (.int n)
  | .float q => some (.float q)
  | .nonFinite => none
  | .str s => s.encode.map .str
  | .array items => (encodeItems items).map .array
  | .object entries => (encodeEntries entries).map .object

def encodeItems : List WireJson → Option (List Json)
  | [] => some []
  | v :: vs => do
    let j ← encode v
    let js ← encodeItems vs
    pure (j :: js)

def encodeEntries : List (PyString × WireJson) → Option (List (String × Json))
  | [] => some []
  | (k, v) :: entries => do
    let key ← PyString.encode k
    let j ← encode v
    let rest ← encodeEntries entries
    pure ((key, j) :: rest)

end

mutual

/-- Some key at some depth of the document satisfies `p`. -/
def anyKey (p : PyString → Bool) : WireJson → Bool
  | .array items => anyKeyItems p items
  | .object entries => anyKeyEntries p entries
  | _ => false

def anyKeyItems (p : PyString → Bool) : List WireJson → Bool
  | [] => false
  | v :: vs => anyKey p v || anyKeyItems p vs

def anyKeyEntries (p : PyString → Bool) : List (PyString × WireJson) → Bool
  | [] => false
  | (k, v) :: entries => p k || anyKey p v || anyKeyEntries p entries

end

end WireJson

mutual

/-- Some key at some depth of the tree satisfies `p`. -/
def Json.anyKey (p : String → Bool) : Json → Bool
  | .array items => Json.anyKeyItems p items
  | .object entries => Json.anyKeyEntries p entries
  | _ => false

def Json.anyKeyItems (p : String → Bool) : List Json → Bool
  | [] => false
  | v :: vs => Json.anyKey p v || Json.anyKeyItems p vs

def Json.anyKeyEntries (p : String → Bool) : List (String × Json) → Bool
  | [] => false
  | (k, v) :: entries => p k || Json.anyKey p v || Json.anyKeyEntries p entries

end

def FrozenJsonObject.anyKey (p : String → Bool) (o : FrozenJsonObject) : Bool :=
  Json.anyKeyEntries p o.entries

namespace WireJson

-- ════════════════════════════════════════════════════════════════════════
-- What freezing and encoding keep
-- ════════════════════════════════════════════════════════════════════════

theorem freezeKey_eq_ok {key k : PyString} (h : freezeKey key = .ok k) : k = PyString.strip key := by
  simp only [freezeKey, bind_eq_ok, require_eq_ok, exists_const, pure_eq_ok] at h
  exact h.2.symm

theorem sortEntries_eq_ok {entries sorted : List (PyString × WireJson)}
    (h : sortEntries entries = .ok sorted) :
    sorted.Perm entries ∧ (sorted.map Prod.fst).Pairwise (· < ·) := by
  simp only [sortEntries, bind_eq_ok, require_eq_ok, exists_const, pure_eq_ok] at h
  obtain ⟨hnodup, rfl⟩ := h
  refine ⟨List.perm_insertionSort _ _, ?_⟩
  have hle := (List.pairwise_insertionSort
    (fun a b : PyString × WireJson => a.1 ≤ b.1) entries).map Prod.fst fun _ _ h => h
  exact (hle.and hnodup).imp fun h => lt_of_le_of_ne h.1 h.2

theorem anyKeyEntries_eq_any (p : PyString → Bool) (entries : List (PyString × WireJson)) :
    anyKeyEntries p entries = entries.any fun e => p e.1 || anyKey p e.2 := by
  induction entries with
  | nil => simp [anyKeyEntries]
  | cons e entries ih => simp [anyKeyEntries, ih]

theorem encodeEntries_isSome (entries : List (PyString × WireJson)) :
    (encodeEntries entries).isSome =
      entries.all fun e => (PyString.encode e.1).isSome && (encode e.2).isSome := by
  induction entries with
  | nil => simp [encodeEntries]
  | cons e entries ih =>
    rw [List.all_cons, ← ih, encodeEntries]
    cases PyString.encode e.1 with
    | none => rfl
    | some k =>
      cases encode e.2 with
      | none => rfl
      | some j => cases encodeEntries entries <;> rfl

theorem encodeItems_isSome (items : List WireJson) :
    (encodeItems items).isSome = items.all fun v => (encode v).isSome := by
  induction items with
  | nil => simp [encodeItems]
  | cons v vs ih =>
    rw [List.all_cons, ← ih, encodeItems]
    cases encode v with
    | none => rfl
    | some j => cases encodeItems vs <;> rfl

mutual

/-- Freezing strips every key and keeps every value. -/
theorem anyKey_freeze (p : PyString → Bool) : ∀ {v w : WireJson}, freeze v = .ok w →
    anyKey p w = anyKey (fun k => p (PyString.strip k)) v
  | .nonFinite, _, h => absurd h (by simp [freeze])
  | .array items, w, h => by
    simp only [freeze, bind_eq_ok, pure_eq_ok] at h
    obtain ⟨ws, hws, rfl⟩ := h
    simp only [anyKey, anyKeyItems_freeze p hws]
  | .object entries, w, h => by
    simp only [freeze, bind_eq_ok, pure_eq_ok] at h
    obtain ⟨frozen, hfrozen, sorted, hsorted, rfl⟩ := h
    have hperm := (sortEntries_eq_ok hsorted).1
    simp only [anyKey]
    rw [anyKeyEntries_eq_any, hperm.any_eq, ← anyKeyEntries_eq_any, anyKeyEntries_freeze p hfrozen]
  | .null, w, h => by obtain rfl := pure_eq_ok.mp h; rfl
  | .bool _, w, h => by obtain rfl := pure_eq_ok.mp h; rfl
  | .int _, w, h => by obtain rfl := pure_eq_ok.mp h; rfl
  | .float _, w, h => by obtain rfl := pure_eq_ok.mp h; rfl
  | .str _, w, h => by obtain rfl := pure_eq_ok.mp h; rfl

theorem anyKeyItems_freeze (p : PyString → Bool) : ∀ {vs ws : List WireJson},
    freezeItems vs = .ok ws → anyKeyItems p ws = anyKeyItems (fun k => p (PyString.strip k)) vs
  | [], _, h => by obtain rfl := pure_eq_ok.mp h; rfl
  | v :: vs, _, h => by
    simp only [freezeItems, bind_eq_ok, pure_eq_ok] at h
    obtain ⟨w, hw, ws, hws, rfl⟩ := h
    simp only [anyKeyItems, anyKey_freeze p hw, anyKeyItems_freeze p hws]

theorem anyKeyEntries_freeze (p : PyString → Bool) :
    ∀ {entries frozen : List (PyString × WireJson)}, freezeEntries entries = .ok frozen →
      anyKeyEntries p frozen = anyKeyEntries (fun k => p (PyString.strip k)) entries
  | [], _, h => by obtain rfl := pure_eq_ok.mp h; rfl
  | (k, v) :: entries, _, h => by
    simp only [freezeEntries, bind_eq_ok, pure_eq_ok] at h
    obtain ⟨key, hkey, w, hw, rest, hrest, rfl⟩ := h
    simp only [anyKeyEntries, freezeKey_eq_ok hkey, anyKey_freeze p hw,
      anyKeyEntries_freeze p hrest]

end

mutual

/-- Freezing neither adds nor removes a surrogate. -/
theorem encode_freeze_isSome : ∀ {v w : WireJson}, freeze v = .ok w →
    (encode w).isSome = (encode v).isSome
  | .nonFinite, _, h => absurd h (by simp [freeze])
  | .array items, w, h => by
    simp only [freeze, bind_eq_ok, pure_eq_ok] at h
    obtain ⟨ws, hws, rfl⟩ := h
    simp only [encode, Option.isSome_map, encodeItems_freeze_isSome hws]
  | .object entries, w, h => by
    simp only [freeze, bind_eq_ok, pure_eq_ok] at h
    obtain ⟨frozen, hfrozen, sorted, hsorted, rfl⟩ := h
    have hperm := (sortEntries_eq_ok hsorted).1
    simp only [encode, Option.isSome_map]
    rw [encodeEntries_isSome, hperm.all_eq, ← encodeEntries_isSome,
      encodeEntries_freeze_isSome hfrozen]
  | .null, w, h => by obtain rfl := pure_eq_ok.mp h; rfl
  | .bool _, w, h => by obtain rfl := pure_eq_ok.mp h; rfl
  | .int _, w, h => by obtain rfl := pure_eq_ok.mp h; rfl
  | .float _, w, h => by obtain rfl := pure_eq_ok.mp h; rfl
  | .str _, w, h => by obtain rfl := pure_eq_ok.mp h; rfl

theorem encodeItems_freeze_isSome : ∀ {vs ws : List WireJson}, freezeItems vs = .ok ws →
    (encodeItems ws).isSome = (encodeItems vs).isSome
  | [], _, h => by obtain rfl := pure_eq_ok.mp h; rfl
  | v :: vs, _, h => by
    simp only [freezeItems, bind_eq_ok, pure_eq_ok] at h
    obtain ⟨w, hw, ws, hws, rfl⟩ := h
    have htail := encodeItems_freeze_isSome hws
    rw [encodeItems_isSome, encodeItems_isSome] at htail ⊢
    rw [List.all_cons, List.all_cons, encode_freeze_isSome hw, htail]

theorem encodeEntries_freeze_isSome : ∀ {entries frozen : List (PyString × WireJson)},
    freezeEntries entries = .ok frozen →
      (encodeEntries frozen).isSome = (encodeEntries entries).isSome
  | [], _, h => by obtain rfl := pure_eq_ok.mp h; rfl
  | (k, v) :: entries, _, h => by
    simp only [freezeEntries, bind_eq_ok, pure_eq_ok] at h
    obtain ⟨key, hkey, w, hw, rest, hrest, rfl⟩ := h
    have htail := encodeEntries_freeze_isSome hrest
    rw [encodeEntries_isSome, encodeEntries_isSome] at htail ⊢
    rw [List.all_cons, List.all_cons, freezeKey_eq_ok hkey, PyString.encode_strip_isSome,
      encode_freeze_isSome hw, htail]

end

-- ════════════════════════════════════════════════════════════════════════
-- Proper objects
-- ════════════════════════════════════════════════════════════════════════

/-- The frozen object over proper text. -/
def encodeObject (entries : List (PyString × WireJson)) : Option FrozenJsonObject := do
  let encoded ← encodeEntries entries
  if h : (encoded.map Prod.fst).Pairwise (· < ·) then some ⟨encoded, h⟩ else none

theorem encodeObject_eq_some {entries : List (PyString × WireJson)}
    {encoded : List (String × Json)} (h : encodeEntries entries = some encoded)
    (hsorted : (encoded.map Prod.fst).Pairwise (· < ·)) :
    encodeObject entries = some ⟨encoded, hsorted⟩ := by
  rw [encodeObject, h]
  exact dif_pos hsorted

/-- Encoding keeps the keys. -/
theorem encodeEntries_keys {entries : List (PyString × WireJson)} {encoded : List (String × Json)}
    (h : encodeEntries entries = some encoded) :
    (encoded.map Prod.fst).map PyString.ofString = entries.map Prod.fst := by
  induction entries generalizing encoded with
  | nil =>
    obtain rfl := Option.some.inj h
    rfl
  | cons e entries ih =>
    obtain ⟨k, v⟩ := e
    simp only [encodeEntries, Option.bind_eq_bind, Option.bind_eq_some_iff, Option.pure_def,
      Option.some.injEq] at h
    obtain ⟨key, hkey, j, _, rest, hrest, rfl⟩ := h
    rw [List.map_cons, List.map_cons, List.map_cons, ih hrest, PyString.encode_eq_some.mp hkey]

theorem encodeEntries_sorted {entries : List (PyString × WireJson)}
    {encoded : List (String × Json)} (h : encodeEntries entries = some encoded)
    (hsorted : (entries.map Prod.fst).Pairwise (· < ·)) :
    (encoded.map Prod.fst).Pairwise (· < ·) := by
  rw [← encodeEntries_keys h, List.pairwise_map] at hsorted
  exact hsorted.imp PyString.ofString_lt.mp

theorem fromMapping_eq_ok {entries frozen : List (PyString × WireJson)}
    (h : fromMapping entries = .ok frozen) : ∃ stripped, freezeEntries entries = .ok stripped ∧
      frozen.Perm stripped ∧ (frozen.map Prod.fst).Pairwise (· < ·) := by
  simp only [fromMapping, bind_eq_ok] at h
  obtain ⟨stripped, hstripped, hsorted⟩ := h
  exact ⟨stripped, hstripped, sortEntries_eq_ok hsorted⟩

/-- An accepted mapping is a proper object exactly when no surrogate occurs in it. -/
theorem encodeObject_isSome {entries frozen : List (PyString × WireJson)}
    (h : fromMapping entries = .ok frozen) :
    (encodeObject frozen).isSome = (encodeEntries entries).isSome := by
  obtain ⟨stripped, hstripped, hperm, hsorted⟩ := fromMapping_eq_ok h
  have hencoded : (encodeEntries frozen).isSome = (encodeEntries entries).isSome := by
    rw [encodeEntries_isSome, hperm.all_eq, ← encodeEntries_isSome,
      encodeEntries_freeze_isSome hstripped]
  rw [← hencoded, encodeObject]
  cases hfrozen : encodeEntries frozen with
  | none => rfl
  | some encoded =>
    have hobject := encodeObject_eq_some hfrozen (encodeEntries_sorted hfrozen hsorted)
    rw [encodeObject, hfrozen] at hobject
    rw [hobject]
    rfl

section AnyKey

variable {p : String → Bool} {q : PyString → Bool}

mutual

/-- Encoding keeps what the keys say as text. -/
theorem anyKey_encode (hpq : ∀ s, q (PyString.ofString s) = p s) : ∀ {v : WireJson} {j : Json}, encode v = some j →
    j.anyKey p = anyKey q v
  | .nonFinite, _, h => absurd h (by simp [encode])
  | .array items, j, h => by
    simp only [encode, Option.map_eq_some_iff] at h
    obtain ⟨js, hjs, rfl⟩ := h
    simp only [Json.anyKey, anyKey, anyKeyItems_encode hpq hjs]
  | .object entries, j, h => by
    simp only [encode, Option.map_eq_some_iff] at h
    obtain ⟨encoded, hencoded, rfl⟩ := h
    simp only [Json.anyKey, anyKey, anyKeyEntries_encode hpq hencoded]
  | .null, j, h => by obtain rfl := Option.some.inj h; rfl
  | .bool _, j, h => by obtain rfl := Option.some.inj h; rfl
  | .int _, j, h => by obtain rfl := Option.some.inj h; rfl
  | .float _, j, h => by obtain rfl := Option.some.inj h; rfl
  | .str _, j, h => by
    simp only [encode, Option.map_eq_some_iff] at h
    obtain ⟨_, _, rfl⟩ := h
    rfl

theorem anyKeyItems_encode (hpq : ∀ s, q (PyString.ofString s) = p s) :
    ∀ {vs : List WireJson} {js : List Json}, encodeItems vs = some js →
    Json.anyKeyItems p js = anyKeyItems q vs
  | [], _, h => by obtain rfl := Option.some.inj h; rfl
  | v :: vs, _, h => by
    simp only [encodeItems, Option.bind_eq_bind, Option.bind_eq_some_iff, Option.pure_def,
      Option.some.injEq] at h
    obtain ⟨j, hj, js, hjs, rfl⟩ := h
    simp only [Json.anyKeyItems, anyKeyItems, anyKey_encode hpq hj, anyKeyItems_encode hpq hjs]

theorem anyKeyEntries_encode (hpq : ∀ s, q (PyString.ofString s) = p s) : ∀ {entries : List (PyString × WireJson)}
    {encoded : List (String × Json)}, encodeEntries entries = some encoded →
      Json.anyKeyEntries p encoded = anyKeyEntries q entries
  | [], _, h => by obtain rfl := Option.some.inj h; rfl
  | (k, v) :: entries, _, h => by
    simp only [encodeEntries, Option.bind_eq_bind, Option.bind_eq_some_iff, Option.pure_def,
      Option.some.injEq] at h
    obtain ⟨key, hkey, j, hj, rest, hrest, rfl⟩ := h
    have hk : q k = p key := by rw [← PyString.encode_eq_some.mp hkey, hpq]
    simp only [Json.anyKeyEntries, anyKeyEntries, anyKey_encode hpq hj, anyKeyEntries_encode hpq hrest, hk]

end

/-- The keys of a proper object are the stripped keys of the mapping it was built from. -/
theorem anyKey_encodeObject (hpq : ∀ s, q (PyString.ofString s) = p s)
    {entries frozen : List (PyString × WireJson)} {o : FrozenJsonObject}
    (hfrozen : fromMapping entries = .ok frozen) (h : encodeObject frozen = some o) :
    o.anyKey p = anyKeyEntries (fun k => q (PyString.strip k)) entries := by
  obtain ⟨stripped, hstripped, hperm, _⟩ := fromMapping_eq_ok hfrozen
  simp only [encodeObject, Option.bind_eq_bind, Option.bind_eq_some_iff] at h
  obtain ⟨encoded, hencoded, ho⟩ := h
  split at ho
  · obtain rfl := Option.some.inj ho
    rw [FrozenJsonObject.anyKey, anyKeyEntries_encode hpq hencoded, anyKeyEntries_eq_any,
      hperm.any_eq, ← anyKeyEntries_eq_any, anyKeyEntries_freeze q hstripped]
  · exact absurd ho (by simp)

end AnyKey

end WireJson

end DigitalColleagues
