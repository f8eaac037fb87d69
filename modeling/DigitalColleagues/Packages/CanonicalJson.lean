import DigitalColleagues.Intelligence.Adapters
import DigitalColleagues.Lib.JsonText

/-!
# Canonical JSON

The one JSON encoding that a digest of a package is taken of: keys sorted at every
depth, no white space, no fractions, UTF-8. Two documents have one encoding exactly
when they are the same up to the order of their keys, and parsing an encoding gives
the document with its keys sorted.

## Main definitions

- `WireJson.UniqueKeys` — every object is one that a `dict` can be
- `canonicalValue`, `canonicalJsonBytes` — the encoding
- `Lossless` — a parser that keeps every value as it is
-/

namespace DigitalColleagues

open JsonText (Tree Hooks)

-- ════════════════════════════════════════════════════════════════════════
-- Objects
-- ════════════════════════════════════════════════════════════════════════

namespace WireJson

mutual

/-- Every object has each of its keys once. -/
def UniqueKeys : WireJson → Prop
  | .array items => UniqueKeysItems items
  | .object entries => (entries.map Prod.fst).Nodup ∧ UniqueKeysEntries entries
  | _ => True

def UniqueKeysItems : List WireJson → Prop
  | [] => True
  | v :: vs => UniqueKeys v ∧ UniqueKeysItems vs

def UniqueKeysEntries : List (PyString × WireJson) → Prop
  | [] => True
  | (_, v) :: entries => UniqueKeys v ∧ UniqueKeysEntries entries

end

theorem uniqueKeysItems_iff {items : List WireJson} :
    UniqueKeysItems items ↔ ∀ v ∈ items, v.UniqueKeys := by
  induction items with
  | nil => simp [UniqueKeysItems]
  | cons v items ih => simp [UniqueKeysItems, ih]

theorem uniqueKeysEntries_iff {entries : List (PyString × WireJson)} :
    UniqueKeysEntries entries ↔ ∀ e ∈ entries, e.2.UniqueKeys := by
  induction entries with
  | nil => simp [UniqueKeysEntries]
  | cons e entries ih => simp [UniqueKeysEntries, ih]

end WireJson

/-- The entries of an object whose keys are written out. -/
def fieldEntries (fields : List (String × WireJson)) : List (PyString × WireJson) :=
  fields.map fun f => (.ofString f.1, f.2)

/-- An object whose keys are written out. -/
def record (fields : List (String × WireJson)) : WireJson := .object (fieldEntries fields)

theorem map_fst_fieldEntries (fields : List (String × WireJson)) :
    (fieldEntries fields).map Prod.fst = (fields.map Prod.fst).map PyString.ofString := by
  simp only [fieldEntries, List.map_map, Function.comp_def]

theorem fieldEntries_injective : Function.Injective fieldEntries := by
  intro a b h
  refine List.map_injective_iff.mpr (fun f g hfg => ?_) h
  exact Prod.ext (PyString.ofString_injective (Prod.mk.inj hfg).1) (Prod.mk.inj hfg).2

theorem uniqueKeys_record {fields : List (String × WireJson)} :
    (record fields).UniqueKeys ↔
      (fields.map Prod.fst).Nodup ∧ ∀ f ∈ fields, f.2.UniqueKeys := by
  rw [record, WireJson.UniqueKeys, WireJson.uniqueKeysEntries_iff, map_fst_fieldEntries,
    List.nodup_map_iff PyString.ofString_injective, fieldEntries, List.forall_mem_map]

theorem hasFields_iff {entries : List (PyString × WireJson)} {fields : List String} :
    hasFields entries fields = true ↔
      ∀ key, key ∈ entries.map Prod.fst ↔ key ∈ fields.map PyString.ofString := by
  simp only [hasFields, Bool.and_eq_true, List.all_eq_true, List.contains_iff_mem]
  constructor
  · rintro ⟨hinto, honto⟩ key
    constructor
    · intro hkey
      obtain ⟨e, he, rfl⟩ := List.mem_map.mp hkey
      exact hinto e he
    · intro hkey
      obtain ⟨field, hfield, rfl⟩ := List.mem_map.mp hkey
      exact honto field hfield
  · intro h
    exact ⟨fun e he => (h e.1).mp (List.mem_map_of_mem he),
      fun field hfield => (h _).mpr (List.mem_map_of_mem hfield)⟩

/-- The value of a key that an object has once. -/
theorem getField_eq {entries : List (PyString × WireJson)} {field : String} {v : WireJson}
    (hnodup : (entries.map Prod.fst).Nodup) (hmem : (PyString.ofString field, v) ∈ entries) :
    getField entries field = v := by
  have hfind : entries.find? (fun e => decide (e.1 = .ofString field)) =
      some (.ofString field, v) := by
    cases hfound : entries.find? fun e => decide (e.1 = .ofString field) with
    | none =>
      have hne := List.find?_eq_none.mp hfound _ hmem
      exact absurd (decide_eq_true rfl) hne
    | some e =>
      have hkey : e.1 = .ofString field := of_decide_eq_true (by simpa only using List.find?_some hfound)
      have heq := List.inj_on_of_nodup_map hnodup (List.mem_of_find?_eq_some hfound) hmem hkey
      rw [heq]
  rw [getField, hfind]
  rfl

/-- A key that an object has comes with its value. -/
theorem mem_getField {entries : List (PyString × WireJson)} {field : String}
    (hnodup : (entries.map Prod.fst).Nodup) (hmem : PyString.ofString field ∈ entries.map Prod.fst) :
    (PyString.ofString field, getField entries field) ∈ entries := by
  obtain ⟨⟨key, v⟩, he, hkey⟩ := List.mem_map.mp hmem
  obtain rfl : key = PyString.ofString field := hkey
  rw [getField_eq hnodup he]
  exact he

/-- The value of a field of a written object. -/
theorem getField_fieldEntries {fields : List (String × WireJson)} {field : String} :
    getField (fieldEntries fields) field =
      ((fields.find? fun f => f.1 = field).map Prod.snd).getD .null := by
  have hsame : ∀ f : String × WireJson,
      decide (PyString.ofString f.1 = PyString.ofString field) = decide (f.1 = field) := fun f =>
    decide_eq_decide.mpr PyString.ofString_injective.eq_iff
  simp only [getField, fieldEntries, List.find?_map, Function.comp_def, hsame, Option.map_map]

-- ════════════════════════════════════════════════════════════════════════
-- Canonical values
-- ════════════════════════════════════════════════════════════════════════

/-- `sorted`, of the entries of an object. -/
def byKey (entries : List (PyString × WireJson)) : List (PyString × WireJson) :=
  entries.insertionSort fun a b => a.1 ≤ b.1

def floatRefused : Failure :=
  .coreInvariant "canonical package JSON does not accept floating-point values"

mutual

/-- `_canonical_value`. It has one failure only, so the values may be done before the
    keys are sorted. -/
def canonicalValue : WireJson → Outcome WireJson
  | .null => .ok .null
  | .bool b => .ok (.bool b)
  | .int n => .ok (.int n)
  | .str s => .ok (.str s)
  | .float _ => .error floatRefused
  | .nonFinite => .error floatRefused
  | .array items => do
    let items ← canonicalItems items
    pure (.array items)
  | .object entries => do
    let entries ← canonicalEntries entries
    pure (.object (byKey entries))

def canonicalItems : List WireJson → Outcome (List WireJson)
  | [] => pure []
  | v :: vs => do
    let w ← canonicalValue v
    let ws ← canonicalItems vs
    pure (w :: ws)

def canonicalEntries : List (PyString × WireJson) → Outcome (List (PyString × WireJson))
  | [] => pure []
  | (k, v) :: entries => do
    let w ← canonicalValue v
    let rest ← canonicalEntries entries
    pure ((k, w) :: rest)

end

theorem canonicalItems_eq_ok {vs ws : List WireJson} :
    canonicalItems vs = .ok ws ↔ List.Forall₂ (fun v w => canonicalValue v = .ok w) vs ws := by
  induction vs generalizing ws with
  | nil => rw [canonicalItems, pure_eq_ok, List.forall₂_nil_left_iff, eq_comm]
  | cons v vs ih =>
    simp only [canonicalItems, bind_eq_ok, pure_eq_ok, ih, List.forall₂_cons_left_iff]
    constructor
    · rintro ⟨w, hw, ws, hws, rfl⟩
      exact ⟨w, ws, hw, hws, rfl⟩
    · rintro ⟨w, ws, hw, hws, rfl⟩
      exact ⟨w, hw, ws, hws, rfl⟩

theorem canonicalEntries_eq_ok {entries canonical : List (PyString × WireJson)} :
    canonicalEntries entries = .ok canonical ↔
      List.Forall₂ (fun e f => e.1 = f.1 ∧ canonicalValue e.2 = .ok f.2) entries canonical := by
  induction entries generalizing canonical with
  | nil => rw [canonicalEntries, pure_eq_ok, List.forall₂_nil_left_iff, eq_comm]
  | cons e entries ih =>
    obtain ⟨key, v⟩ := e
    simp only [canonicalEntries, bind_eq_ok, pure_eq_ok, ih, List.forall₂_cons_left_iff]
    constructor
    · rintro ⟨w, hw, rest, hrest, rfl⟩
      exact ⟨(key, w), rest, ⟨rfl, hw⟩, hrest, rfl⟩
    · rintro ⟨⟨k, w⟩, rest, ⟨rfl, hw⟩, hrest, rfl⟩
      exact ⟨w, hw, rest, hrest, rfl⟩

theorem map_fst_of_forall₂ {entries canonical : List (PyString × WireJson)}
    (h : List.Forall₂ (fun e f => e.1 = f.1 ∧ canonicalValue e.2 = .ok f.2) entries canonical) :
    canonical.map Prod.fst = entries.map Prod.fst := by
  induction h with
  | nil => rfl
  | cons hhead _ ih => rw [List.map_cons, List.map_cons, ih, hhead.1]

theorem byKey_perm (entries : List (PyString × WireJson)) : (byKey entries).Perm entries :=
  List.perm_insertionSort _ _

/-- Entries with different keys are sorted strictly. -/
theorem byKey_sorted {entries : List (PyString × WireJson)}
    (hnodup : (entries.map Prod.fst).Nodup) : ((byKey entries).map Prod.fst).Pairwise (· < ·) := by
  have hle := (List.pairwise_insertionSort
    (fun a b : PyString × WireJson => a.1 ≤ b.1) entries).map Prod.fst fun _ _ h => h
  have hsame := ((byKey_perm entries).map Prod.fst).nodup_iff.mpr hnodup
  exact (hle.and hsame).imp fun h => lt_of_le_of_ne h.1 h.2

/-- There is one way to sort entries with different keys. -/
theorem byKey_eq_iff {entries sorted : List (PyString × WireJson)}
    (hsorted : (sorted.map Prod.fst).Pairwise (· < ·)) :
    byKey entries = sorted ↔ entries.Perm sorted := by
  constructor
  · rintro rfl
    exact (byKey_perm entries).symm
  · intro hperm
    have hnodup : (entries.map Prod.fst).Nodup :=
      (hperm.map Prod.fst).nodup_iff.mpr (hsorted.imp ne_of_lt)
    exact List.Perm.eq_of_pairwise (fun _ _ _ _ hab hba => absurd hab hba.asymm)
      (List.pairwise_map.mp (byKey_sorted hnodup)) (List.pairwise_map.mp hsorted)
      ((byKey_perm entries).trans hperm)

theorem sorted_fieldEntries {fields : List (String × WireJson)}
    (hsorted : (fields.map Prod.fst).Pairwise (· < ·)) :
    ((fieldEntries fields).map Prod.fst).Pairwise (· < ·) := by
  rw [map_fst_fieldEntries, List.pairwise_map]
  exact hsorted.imp PyString.ofString_lt.mpr

section Related

variable {α β : Type} {R : α → β → Prop}

theorem exists_left_of_forall₂ {l : List α} {m : List β} (h : List.Forall₂ R l m) {b : β}
    (hb : b ∈ m) : ∃ a ∈ l, R a b := by
  induction h with
  | nil => exact absurd hb (by simp)
  | cons hhead _ ih =>
    obtain rfl | hb := List.mem_cons.mp hb
    · exact ⟨_, List.mem_cons_self .., hhead⟩
    · obtain ⟨a, ha, hr⟩ := ih hb
      exact ⟨a, List.mem_cons_of_mem _ ha, hr⟩

theorem exists_forall₂ {l : List α} {S : List β} (h : ∀ a ∈ l, ∃ b ∈ S, R a b) :
    ∃ m, List.Forall₂ R l m ∧ ∀ b ∈ m, b ∈ S := by
  induction l with
  | nil => exact ⟨[], .nil, by simp⟩
  | cons a l ih =>
    obtain ⟨m, hm, hsub⟩ := ih fun a ha => h a (List.mem_cons_of_mem _ ha)
    obtain ⟨b, hb, hr⟩ := h a (List.mem_cons_self ..)
    exact ⟨b :: m, .cons hr hm, List.forall_mem_cons.mpr ⟨hb, hsub⟩⟩

end Related

/-- The objects whose canonical value has the given fields: those with exactly these keys
    whose values have these canonical values. -/
theorem canonicalValue_object {entries : List (PyString × WireJson)}
    (hnodup : (entries.map Prod.fst).Nodup) {fields : List (String × WireJson)}
    (hsorted : (fields.map Prod.fst).Pairwise (· < ·)) :
    canonicalValue (.object entries) = .ok (record fields) ↔
      hasFields entries (fields.map Prod.fst) = true ∧
        ∀ f ∈ fields, canonicalValue (getField entries f.1) = .ok f.2 := by
  have hfieldsNodup := (sorted_fieldEntries hsorted).imp (fun h => ne_of_lt h)
  simp only [canonicalValue, bind_eq_ok, pure_eq_ok, record, WireJson.object.injEq,
    byKey_eq_iff (sorted_fieldEntries hsorted), canonicalEntries_eq_ok, hasFields_iff]
  constructor
  · rintro ⟨canonical, hall, hperm⟩
    have hkeys := map_fst_of_forall₂ hall
    refine ⟨fun key => ?_, fun f hf => ?_⟩
    · rw [← hkeys, ← map_fst_fieldEntries]
      exact (hperm.map Prod.fst).mem_iff
    · have hmem : (PyString.ofString f.1, f.2) ∈ canonical :=
        hperm.mem_iff.mpr (List.mem_map_of_mem hf)
      obtain ⟨⟨key, v⟩, he, hkey, hv⟩ := exists_left_of_forall₂ hall hmem
      obtain rfl : key = PyString.ofString f.1 := hkey
      rw [getField_eq hnodup he]
      exact hv
  · rintro ⟨hkeys, hvalues⟩
    have hentry : ∀ e ∈ entries, ∃ f ∈ fieldEntries fields,
        e.1 = f.1 ∧ canonicalValue e.2 = .ok f.2 := by
      rintro ⟨key, v⟩ he
      obtain ⟨name, hname, hkey⟩ := List.mem_map.mp ((hkeys key).mp (List.mem_map_of_mem he))
      obtain ⟨f, hf, rfl⟩ := List.mem_map.mp hname
      obtain rfl : PyString.ofString f.1 = key := hkey
      refine ⟨_, List.mem_map_of_mem hf, rfl, ?_⟩
      rw [← hvalues f hf, getField_eq hnodup he]
    obtain ⟨canonical, hall, hsub⟩ := exists_forall₂ hentry
    have hcanonical := map_fst_of_forall₂ hall
    refine ⟨canonical, hall, (List.perm_ext_iff_of_nodup ?_ ?_).mpr fun f => ⟨hsub f, fun hf => ?_⟩⟩
    · exact .of_map Prod.fst (hcanonical ▸ hnodup)
    · exact .of_map Prod.fst hfieldsNodup
    · have hkey : f.1 ∈ canonical.map Prod.fst := by
        rw [hcanonical, hkeys, ← map_fst_fieldEntries]
        exact List.mem_map_of_mem hf
      obtain ⟨c, hc, heq⟩ := List.mem_map.mp hkey
      rw [← List.inj_on_of_nodup_map hfieldsNodup (hsub c hc) hf heq]
      exact hc

theorem canonicalValue_eq_str {v : WireJson} {s : PyString} :
    canonicalValue v = .ok (.str s) ↔ v = .str s := by
  cases v <;> simp [canonicalValue, bind_eq_ok, -bind_pure_comp]

theorem canonicalValue_eq_int {v : WireJson} {n : ℤ} :
    canonicalValue v = .ok (.int n) ↔ v = .int n := by
  cases v <;> simp [canonicalValue, bind_eq_ok, -bind_pure_comp]

theorem canonicalValue_eq_array {v : WireJson} {ws : List WireJson} :
    canonicalValue v = .ok (.array ws) ↔
      ∃ vs, v = .array vs ∧ List.Forall₂ (fun v w => canonicalValue v = .ok w) vs ws := by
  cases v <;> simp [canonicalValue, bind_eq_ok, canonicalItems_eq_ok, -bind_pure_comp]

/-- Only an object has the canonical value of one. -/
theorem canonicalValue_eq_object {v : WireJson} {sorted : List (PyString × WireJson)}
    (h : canonicalValue v = .ok (.object sorted)) : ∃ entries, v = .object entries := by
  cases v with
  | object entries => exact ⟨entries, rfl⟩
  | _ => exact absurd h (by simp [canonicalValue, bind_eq_ok, -bind_pure_comp])

mutual

/-- A canonical value is its own. -/
theorem canonicalValue_canonical : ∀ {v w : WireJson}, v.UniqueKeys → canonicalValue v = .ok w →
    canonicalValue w = .ok w ∧ w.UniqueKeys
  | .null, w, hu, h | .bool _, w, hu, h | .int _, w, hu, h | .str _, w, hu, h => by
    obtain rfl := Except.ok.inj h
    exact ⟨rfl, hu⟩
  | .float _, _, _, h | .nonFinite, _, _, h => absurd h (by simp [canonicalValue])
  | .array items, w, hu, h => by
    simp only [canonicalValue, bind_eq_ok, pure_eq_ok] at h
    obtain ⟨ws, hws, rfl⟩ := h
    obtain ⟨hitems, hunique⟩ := canonicalItems_canonical hu hws
    rw [canonicalValue, hitems]
    exact ⟨rfl, hunique⟩
  | .object entries, w, hu, h => by
    simp only [canonicalValue, bind_eq_ok, pure_eq_ok] at h
    obtain ⟨canonical, hcanonical, rfl⟩ := h
    obtain ⟨hentries, hunique⟩ := canonicalEntries_canonical hu.2 hcanonical
    have hkeys := map_fst_of_forall₂ (canonicalEntries_eq_ok.mp hcanonical)
    have hsorted := byKey_sorted (hkeys ▸ hu.1)
    have hall : ∀ e ∈ byKey canonical, canonicalValue e.2 = .ok e.2 ∧ e.2.UniqueKeys :=
      fun e he => ⟨hentries e ((byKey_perm _).mem_iff.mp he), hunique e ((byKey_perm _).mem_iff.mp he)⟩
    refine ⟨?_, ((byKey_perm _).map Prod.fst).nodup_iff.mpr (hkeys ▸ hu.1),
      WireJson.uniqueKeysEntries_iff.mpr fun e he => (hall e he).2⟩
    have hsame : canonicalEntries (byKey canonical) = .ok (byKey canonical) :=
      canonicalEntries_eq_ok.mpr (List.forall₂_same.mpr fun e he => ⟨rfl, (hall e he).1⟩)
    rw [canonicalValue, hsame]
    exact congrArg (fun entries => Except.ok (WireJson.object entries))
      ((byKey_eq_iff hsorted).mpr (.refl _))

theorem canonicalItems_canonical : ∀ {vs ws : List WireJson}, WireJson.UniqueKeysItems vs →
    canonicalItems vs = .ok ws → canonicalItems ws = .ok ws ∧ WireJson.UniqueKeysItems ws
  | [], _, _, h => by
    obtain rfl := pure_eq_ok.mp h
    exact ⟨rfl, trivial⟩
  | v :: vs, _, hu, h => by
    simp only [canonicalItems, bind_eq_ok, pure_eq_ok] at h
    obtain ⟨w, hw, ws, hws, rfl⟩ := h
    obtain ⟨hv, hvunique⟩ := canonicalValue_canonical hu.1 hw
    obtain ⟨hvs, hvsunique⟩ := canonicalItems_canonical hu.2 hws
    rw [canonicalItems, hv, hvs]
    exact ⟨rfl, hvunique, hvsunique⟩

theorem canonicalEntries_canonical : ∀ {entries canonical : List (PyString × WireJson)},
    WireJson.UniqueKeysEntries entries → canonicalEntries entries = .ok canonical →
      (∀ e ∈ canonical, canonicalValue e.2 = .ok e.2) ∧ ∀ e ∈ canonical, e.2.UniqueKeys
  | [], _, _, h => by
    obtain rfl := pure_eq_ok.mp h
    exact ⟨by simp, by simp⟩
  | (key, v) :: entries, _, hu, h => by
    simp only [canonicalEntries, bind_eq_ok, pure_eq_ok] at h
    obtain ⟨w, hw, rest, hrest, rfl⟩ := h
    obtain ⟨hv, hvunique⟩ := canonicalValue_canonical hu.1 hw
    obtain ⟨hentries, hunique⟩ := canonicalEntries_canonical hu.2 hrest
    exact ⟨List.forall_mem_cons.mpr ⟨hv, hentries⟩, List.forall_mem_cons.mpr ⟨hvunique, hunique⟩⟩

end

-- ════════════════════════════════════════════════════════════════════════
-- Encoding
-- ════════════════════════════════════════════════════════════════════════

namespace WireJson

mutual

/-- The tree that `json.dumps` writes, if it can be encoded as UTF-8. -/
def tree? : WireJson → Option Tree
  | .null => some .null
  | .bool b => some (.bool b)
  | .int n => some (.int n)
  | .float _ => none
  | .nonFinite => none
  | .str s => s.encode.map .str
  | .array items => (treeItems? items).map .array
  | .object entries => (treeMembers? entries).map .object

def treeItems? : List WireJson → Option (List Tree)
  | [] => some []
  | v :: vs => (tree? v).bind fun t => (treeItems? vs).map fun ts => t :: ts

def treeMembers? : List (PyString × WireJson) → Option (List (String × Tree))
  | [] => some []
  | (k, v) :: entries => k.encode.bind fun key => (tree? v).bind fun t =>
      (treeMembers? entries).map fun members => (key, t) :: members

end

mutual

/-- The document that a tree is. -/
def ofTree : Tree → WireJson
  | .null => .null
  | .bool b => .bool b
  | .int n => .int n
  | .str s => .str (.ofString s)
  | .array items => .array (ofTrees items)
  | .object members => .object (ofMembers members)

def ofTrees : List Tree → List WireJson
  | [] => []
  | t :: ts => ofTree t :: ofTrees ts

def ofMembers : List (String × Tree) → List (PyString × WireJson)
  | [] => []
  | (key, t) :: members => (.ofString key, ofTree t) :: ofMembers members

end

mutual

theorem tree?_eq_some : ∀ {v : WireJson} {t : Tree}, v.tree? = some t → ofTree t = v
  | .null, _, h | .bool _, _, h | .int _, _, h => by
    obtain rfl := Option.some.inj h
    rfl
  | .str s, _, h => by
    simp only [tree?, Option.map_eq_some_iff] at h
    obtain ⟨text, htext, rfl⟩ := h
    rw [ofTree, PyString.encode_eq_some.mp htext]
  | .array items, _, h => by
    simp only [tree?, Option.map_eq_some_iff] at h
    obtain ⟨ts, hts, rfl⟩ := h
    rw [ofTree, treeItems?_eq_some hts]
  | .object entries, _, h => by
    simp only [tree?, Option.map_eq_some_iff] at h
    obtain ⟨members, hmembers, rfl⟩ := h
    rw [ofTree, treeMembers?_eq_some hmembers]

theorem treeItems?_eq_some : ∀ {vs : List WireJson} {ts : List Tree}, treeItems? vs = some ts →
    ofTrees ts = vs
  | [], _, h => by
    obtain rfl := Option.some.inj h
    rfl
  | v :: vs, _, h => by
    simp only [treeItems?, Option.bind_eq_some_iff, Option.map_eq_some_iff] at h
    obtain ⟨t, ht, ts, hts, rfl⟩ := h
    rw [ofTrees, tree?_eq_some ht, treeItems?_eq_some hts]

theorem treeMembers?_eq_some : ∀ {entries : List (PyString × WireJson)}
    {members : List (String × Tree)}, treeMembers? entries = some members → ofMembers members = entries
  | [], _, h => by
    obtain rfl := Option.some.inj h
    rfl
  | (k, v) :: entries, _, h => by
    simp only [treeMembers?, Option.bind_eq_some_iff, Option.map_eq_some_iff] at h
    obtain ⟨key, hkey, t, ht, members, hmembers, rfl⟩ := h
    rw [ofMembers, PyString.encode_eq_some.mp hkey, tree?_eq_some ht, treeMembers?_eq_some hmembers]

end

end WireJson

-- ════════════════════════════════════════════════════════════════════════
-- Bytes
-- ════════════════════════════════════════════════════════════════════════

/-- `str.encode("utf-8")`. -/
def encodeUtf8 (text : List Char) : List UInt8 := text.flatMap String.utf8EncodeChar

/-- `bytes.decode("utf-8", errors="strict")`. -/
def decodeUtf8 (bytes : List UInt8) : Option (List Char) :=
  bytes.toByteArray.utf8Decode?.map Array.toList

@[simp] theorem decodeUtf8_encodeUtf8 (text : List Char) :
    decodeUtf8 (encodeUtf8 text) = some text := by
  have hdecode := @List.utf8Decode?_utf8Encode text
  rw [List.utf8Encode] at hdecode
  rw [decodeUtf8, encodeUtf8, hdecode]
  rfl

theorem encodeUtf8_injective : Function.Injective encodeUtf8 := by
  intro a b h
  exact Option.some.inj ((decodeUtf8_encodeUtf8 a).symm.trans (h ▸ decodeUtf8_encodeUtf8 b))

/-- `canonical_json_bytes`. -/
def canonicalJsonBytes (value : WireJson) : Outcome (List UInt8) := do
  let canonical ← canonicalValue value
  let tree ← orFail canonical.tree? (.coreInvariant "package JSON cannot be canonically encoded")
  pure (encodeUtf8 tree.write)

theorem canonicalJsonBytes_eq_ok {v : WireJson} {bytes : List UInt8} :
    canonicalJsonBytes v = .ok bytes ↔ ∃ w, canonicalValue v = .ok w ∧ ∃ tree,
      w.tree? = some tree ∧ encodeUtf8 tree.write = bytes := by
  simp only [canonicalJsonBytes, bind_eq_ok, orFail_eq_ok, pure_eq_ok]

/-- Documents with one encoding have one canonical value. -/
theorem canonicalValue_of_canonicalJsonBytes {v v' : WireJson} {bytes : List UInt8}
    (h : canonicalJsonBytes v = .ok bytes) (h' : canonicalJsonBytes v' = .ok bytes) :
    canonicalValue v = canonicalValue v' := by
  obtain ⟨w, hw, tree, htree, rfl⟩ := canonicalJsonBytes_eq_ok.mp h
  obtain ⟨w', hw', tree', htree', hbytes⟩ := canonicalJsonBytes_eq_ok.mp h'
  obtain rfl := Tree.write_injective (encodeUtf8_injective hbytes)
  rw [hw, hw', ← WireJson.tree?_eq_some htree, ← WireJson.tree?_eq_some htree']

-- ════════════════════════════════════════════════════════════════════════
-- Parsing
-- ════════════════════════════════════════════════════════════════════════

/-- A parser that builds the document as it is, objects with repeated keys apart. -/
structure Lossless {E : Type} (h : Hooks WireJson E) : Prop where
  null : h.null = .null
  bool : ∀ b, h.bool b = .bool b
  int : ∀ n, h.int n = .int n
  str : ∀ s, h.str s = .str s
  array : ∀ items, h.array items = .array items
  object : ∀ entries : List (PyString × WireJson), (entries.map Prod.fst).Nodup →
    h.object entries = .ok (.object entries)

theorem map_point (s : String) : s.toList.map JsonText.point = PyString.ofString s := by
  refine List.map_congr_left fun c _ => Fin.ext ?_
  exact Nat.mod_eq_of_lt (CodePoint.ofChar c).isLt

section Parsing

variable {E : Type} {h : Hooks WireJson E}

mutual

theorem Lossless.fold (hl : Lossless h) : ∀ {t : Tree}, (WireJson.ofTree t).UniqueKeys →
    t.fold h = .ok (WireJson.ofTree t)
  | .null, _ => congrArg Except.ok hl.null
  | .bool b, _ => congrArg Except.ok (hl.bool b)
  | .int n, _ => congrArg Except.ok (hl.int n)
  | .str s, _ => by
    rw [Tree.fold, map_point, hl.str]
    rfl
  | .array items, hu => by
    rw [Tree.fold, hl.foldItems hu]
    exact congrArg Except.ok (hl.array _)
  | .object members, hu => by
    rw [Tree.fold, hl.foldMembers hu.2]
    exact hl.object _ hu.1

theorem Lossless.foldItems (hl : Lossless h) : ∀ {ts : List Tree},
    WireJson.UniqueKeysItems (WireJson.ofTrees ts) →
      Tree.foldItems h ts = .ok (WireJson.ofTrees ts)
  | [], _ => rfl
  | t :: ts, hu => by
    rw [Tree.foldItems, hl.fold hu.1, hl.foldItems hu.2]
    rfl

theorem Lossless.foldMembers (hl : Lossless h) : ∀ {members : List (String × Tree)},
    WireJson.UniqueKeysEntries (WireJson.ofMembers members) →
      Tree.foldMembers h members = .ok (WireJson.ofMembers members)
  | [], _ => rfl
  | (key, t) :: members, hu => by
    rw [Tree.foldMembers, hl.fold hu.1, hl.foldMembers hu.2, WireJson.ofMembers, ← map_point]
    rfl

end

/-- Parsing an encoding gives the canonical value of the document. -/
theorem Lossless.load_canonicalJsonBytes (hl : Lossless h) {v : WireJson} {bytes : List UInt8}
    (hu : v.UniqueKeys) (hbytes : canonicalJsonBytes v = .ok bytes) :
    ∃ text w, decodeUtf8 bytes = some text ∧ JsonText.load h text = .ok w ∧
      canonicalValue v = .ok w := by
  obtain ⟨w, hw, tree, htree, rfl⟩ := canonicalJsonBytes_eq_ok.mp hbytes
  obtain rfl := WireJson.tree?_eq_some htree
  refine ⟨tree.write, _, decodeUtf8_encodeUtf8 _, ?_, hw⟩
  rw [JsonText.load_write, hl.fold (canonicalValue_canonical hu hw).2]

end Parsing

end DigitalColleagues
