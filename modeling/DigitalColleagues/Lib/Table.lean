import Mathlib.Data.List.Nodup
import Mathlib.Data.List.MinMax
import Mathlib.Algebra.BigOperators.Group.List.Basic
import Mathlib.Algebra.Order.BigOperators.Group.List
import Mathlib.Algebra.Order.Ring.Nat
import Mathlib.Tactic.Common

/-!
# Keyed tables

A relational table with a primary key: the rows in insertion order, no two of
them with the same key. Reads, inserts and updates by key, bulk updates, ordered
selection and sums over all rows, each with the lemma that says how the others
see it.

## Main definitions

- `Keyed` — the primary key of a row type
- `Table` — rows with distinct keys
- `Table.find?`, `Table.insert?`, `Table.replace`, `Table.update` — the statements
- `Table.selectMin` — the first row in an order among those that qualify
- `Table.sum` — a sum over all rows
-/

/-- The primary key of a row type. -/
class Keyed (ρ : Type*) (κ : outParam (Type*)) where
  key : ρ → κ

/-- Rows in insertion order with pairwise distinct primary keys. -/
@[ext] structure Table (ρ : Type*) {κ : Type*} [Keyed ρ κ] where
  rows : List ρ
  nodup : (rows.map Keyed.key).Nodup

namespace Table

open Keyed

variable {ρ κ : Type*} [Keyed ρ κ]

/-- The table without rows. -/
def empty : Table ρ := ⟨[], by simp⟩

instance : Membership ρ (Table ρ) := ⟨fun t r => r ∈ t.rows⟩

theorem mem_def {t : Table ρ} {r : ρ} : r ∈ t ↔ r ∈ t.rows := Iff.rfl

@[simp] theorem not_mem_empty (r : ρ) : r ∉ (empty : Table ρ) := by
  simp [mem_def, empty]

/-- Two rows with one key are one row. -/
theorem eq_of_key_eq {t : Table ρ} {r r' : ρ} (h : r ∈ t) (h' : r' ∈ t)
    (hk : key r = key r') : r = r' :=
  List.inj_on_of_nodup_map t.nodup h h' hk

section Lookup

variable [DecidableEq κ]

/-- The row with a given key. -/
def find? (t : Table ρ) (k : κ) : Option ρ :=
  t.rows.find? fun r => decide (key r = k)

@[simp] theorem find?_empty (k : κ) : (empty : Table ρ).find? k = none := rfl

theorem find?_eq_some {t : Table ρ} {k : κ} {r : ρ} :
    t.find? k = some r ↔ r ∈ t ∧ key r = k := by
  constructor
  · intro h
    exact ⟨List.mem_of_find?_eq_some h, by simpa using List.find?_some h⟩
  · rintro ⟨hr, rfl⟩
    cases h : t.find? (key r) with
    | none =>
      have := List.find?_eq_none.mp h r hr
      simp at this
    | some r' =>
      have hr' : r' ∈ t := List.mem_of_find?_eq_some h
      have hk : key r' = key r := by simpa using List.find?_some h
      rw [eq_of_key_eq hr' hr hk]

theorem mem_of_find? {t : Table ρ} {k : κ} {r : ρ} (h : t.find? k = some r) : r ∈ t :=
  (find?_eq_some.mp h).1

theorem key_of_find? {t : Table ρ} {k : κ} {r : ρ} (h : t.find? k = some r) : key r = k :=
  (find?_eq_some.mp h).2

theorem find?_of_mem {t : Table ρ} {r : ρ} (h : r ∈ t) : t.find? (key r) = some r :=
  find?_eq_some.mpr ⟨h, rfl⟩

theorem find?_eq_none {t : Table ρ} {k : κ} : t.find? k = none ↔ ∀ r ∈ t, key r ≠ k := by
  simp [find?, List.find?_eq_none, mem_def]

-- ════════════════════════════════════════════════════════════════════════
-- Insert
-- ════════════════════════════════════════════════════════════════════════

/-- Insert a row, unless its primary key is taken. -/
def insert? (t : Table ρ) (r : ρ) : Option (Table ρ) :=
  if h : t.find? (key r) = none then
    some ⟨t.rows ++ [r], by
      rw [List.map_append, List.nodup_append]
      refine ⟨t.nodup, by simp, ?_⟩
      rintro k hk k' hk' rfl
      obtain ⟨x, hx, rfl⟩ := List.mem_map.mp hk
      simp only [List.map_cons, List.map_nil, List.mem_singleton] at hk'
      exact find?_eq_none.mp h x hx hk'⟩
  else none

theorem insert?_eq_some {t t' : Table ρ} {r : ρ} :
    t.insert? r = some t' ↔ t.find? (key r) = none ∧ t'.rows = t.rows ++ [r] := by
  unfold insert?
  split
  · rename_i h
    simp only [Option.some.injEq, h, true_and]
    constructor
    · rintro rfl
      rfl
    · intro h'
      exact Table.ext h'.symm
  · simp_all

theorem insert?_eq_none {t : Table ρ} {r : ρ} :
    t.insert? r = none ↔ ∃ r', t.find? (key r) = some r' := by
  unfold insert?
  split <;> simp_all [← Option.ne_none_iff_exists']

theorem mem_insert {t t' : Table ρ} {r x : ρ} (h : t.insert? r = some t') :
    x ∈ t' ↔ x ∈ t ∨ x = r := by
  simp [mem_def, (insert?_eq_some.mp h).2]

theorem find?_insert {t t' : Table ρ} {r : ρ} (h : t.insert? r = some t') (k : κ) :
    t'.find? k = if k = key r then some r else t.find? k := by
  obtain ⟨hnone, hrows⟩ := insert?_eq_some.mp h
  simp only [find?, hrows, List.find?_append]
  split
  · subst k
    have : t.rows.find? (fun x => decide (key x = key r)) = none := hnone
    simp [this]
  · rename_i hk
    have : ¬key r = k := fun he => hk he.symm
    simp [this]

/-- An insert changes no row that was there. -/
theorem find?_insert_of_some {t t' : Table ρ} {r x : ρ} {k : κ} (h : t.insert? r = some t')
    (hx : t.find? k = some x) : t'.find? k = some x := by
  rw [find?_insert h, if_neg, hx]
  rintro rfl
  rw [(insert?_eq_some.mp h).1] at hx
  exact absurd hx (by simp)

/-- Every row is found in the other table, changed in a way that a relation allows. -/
def Persists (R : ρ → ρ → Prop) (t u : Table ρ) : Prop :=
  ∀ k r, t.find? k = some r → ∃ r', u.find? k = some r' ∧ R r r'

theorem Persists.refl {R : ρ → ρ → Prop} (hrefl : ∀ r, R r r) (t : Table ρ) : t.Persists R t :=
  fun _ r h => ⟨r, h, hrefl r⟩

theorem Persists.trans {R : ρ → ρ → Prop} (htrans : ∀ r s x, R r s → R s x → R r x)
    {t u v : Table ρ} (h : t.Persists R u) (h' : u.Persists R v) : t.Persists R v := by
  intro k r hr
  obtain ⟨s, hs, hrs⟩ := h k r hr
  obtain ⟨x, hx, hsx⟩ := h' k s hs
  exact ⟨x, hx, htrans r s x hrs hsx⟩

/-- Every row is found in the other table. -/
def Within (t u : Table ρ) : Prop := ∀ k r, t.find? k = some r → u.find? k = some r

theorem Within.refl (t : Table ρ) : t.Within t := fun _ _ h => h

theorem Within.trans {t u v : Table ρ} (h : t.Within u) (h' : u.Within v) : t.Within v :=
  fun k r hr => h' k r (h k r hr)

theorem within_insert {t t' : Table ρ} {r : ρ} (h : t.insert? r = some t') : t.Within t' :=
  fun _ _ hx => find?_insert_of_some h hx

-- ════════════════════════════════════════════════════════════════════════
-- Update
-- ════════════════════════════════════════════════════════════════════════

/-- Write a row over the one with its key, if there is one. -/
def replace (t : Table ρ) (r : ρ) : Table ρ :=
  ⟨t.rows.map fun x => if key x = key r then r else x, by
    have : (t.rows.map fun x => if key x = key r then r else x).map key = t.rows.map key := by
      rw [List.map_map]
      apply List.map_congr_left
      intro x _
      simp only [Function.comp_apply]
      split
      · exact (by assumption : key x = key r).symm
      · rfl
    rw [this]
    exact t.nodup⟩

/-- Rewrite every row by a function that keeps its key. -/
def update (t : Table ρ) (f : ρ → ρ) (hf : ∀ r, key (f r) = key r) : Table ρ :=
  ⟨t.rows.map f, by
    have : (t.rows.map f).map key = t.rows.map key := by
      rw [List.map_map]
      exact List.map_congr_left fun x _ => hf x
    rw [this]
    exact t.nodup⟩

theorem find?_replace (t : Table ρ) (r : ρ) (k : κ) :
    (t.replace r).find? k = if k = key r then (t.find? k).map fun _ => r else t.find? k := by
  simp only [find?, replace]
  induction t.rows with
  | nil => simp
  | cons x xs ih =>
    simp only [List.map_cons, List.find?_cons]
    by_cases hx : key x = key r
    · by_cases hk : k = key r
      · simp [hx, hk]
      · have hk' : ¬key r = k := fun he => hk he.symm
        simp only [hx, if_true, hk', decide_false, ih]
    · by_cases hxk : key x = k
      · have hk : ¬k = key r := fun he => hx (hxk.trans he)
        simp [hxk, hk]
      · simp only [hx, if_false, hxk, decide_false, ih]

theorem find?_replace_self {t : Table ρ} {r x : ρ} (h : t.find? (key r) = some x) :
    (t.replace r).find? (key r) = some r := by
  simp [find?_replace, h]

theorem find?_replace_of_ne {t : Table ρ} {r : ρ} {k : κ} (h : k ≠ key r) :
    (t.replace r).find? k = t.find? k := by
  simp [find?_replace, h]

/-- What an insert does at every key: nothing, or it puts the new row there. -/
theorem find?_insert_rel {R : Option ρ → Option ρ → Prop} {t t' : Table ρ} {r : ρ}
    (hsame : ∀ o, R o o) (hnew : R none (some r)) (h : t.insert? r = some t') (k : κ) :
    R (t.find? k) (t'.find? k) := by
  rw [find?_insert h]
  split
  · rename_i hk
    rw [hk, (insert?_eq_some.mp h).1]
    exact hnew
  · exact hsame _

/-- What a replacement does at every key: nothing, or it moves the row there. -/
theorem find?_replace_rel {R : Option ρ → Option ρ → Prop} {t : Table ρ} {r x : ρ}
    (hsame : ∀ o, R o o) (hmoved : R (some x) (some r)) (hx : x ∈ t) (hkey : key x = key r)
    (k : κ) : R (t.find? k) ((t.replace r).find? k) := by
  have hfound : t.find? (key r) = some x := hkey ▸ find?_of_mem hx
  by_cases hk : k = key r
  · rw [hk, find?_replace_self hfound, hfound]
    exact hmoved
  · rw [find?_replace_of_ne hk]
    exact hsame _

/-- An update by key, seen as a rewrite of every row. -/
theorem find?_replace_eq_map (t : Table ρ) (r : ρ) (k : κ) :
    (t.replace r).find? k = (t.find? k).map fun x => if key x = key r then r else x := by
  rw [find?_replace]
  split
  · subst k
    cases h : t.find? (key r) with
    | none => rfl
    | some x => simp [key_of_find? h]
  · rename_i hk
    cases h : t.find? k with
    | none => rfl
    | some x =>
      have hx : key x ≠ key r := fun he => hk ((key_of_find? h).symm.trans he)
      simp [hx]

theorem replace_self {t : Table ρ} {r : ρ} (h : r ∈ t) : t.replace r = t := by
  obtain ⟨rows, hd⟩ := t
  have hrows : ∀ y ∈ rows, (if key y = key r then r else y) = y := by
    intro y hy
    split
    · rename_i he
      exact eq_of_key_eq (t := ⟨rows, hd⟩) h hy he.symm
    · rfl
  simp only [replace, Table.mk.injEq]
  exact (List.map_congr_left hrows).trans (List.map_id _)

theorem replace_replace (t : Table ρ) {r x : ρ} (h : key r = key x) :
    (t.replace r).replace x = t.replace x := by
  simp only [replace, List.map_map, Table.mk.injEq]
  apply List.map_congr_left
  intro y _
  simp only [Function.comp_apply, h]
  by_cases hy : key y = key x <;> simp [hy, h]

theorem mem_replace {t : Table ρ} {r x y : ρ} (h : t.find? (key r) = some x) :
    y ∈ t.replace r ↔ y = r ∨ (y ∈ t ∧ key y ≠ key r) := by
  rw [← and_iff_left (a := y ∈ t.replace r) rfl, ← find?_eq_some (k := key y), find?_replace]
  by_cases hk : key y = key r
  · rw [if_pos hk, hk, h, Option.map_some, Option.some.injEq]
    constructor
    · exact fun he => .inl he.symm
    · rintro (he | ⟨_, hne⟩)
      · exact he.symm
      · exact absurd rfl hne
  · rw [if_neg hk, find?_eq_some]
    constructor
    · exact fun hy => .inr ⟨hy.1, hk⟩
    · rintro (rfl | hy)
      · exact absurd rfl hk
      · exact ⟨hy.1, rfl⟩

theorem forall_replace {t : Table ρ} {r : ρ} {P : ρ → Prop} (h : ∀ x ∈ t, P x) (hr : P r) :
    ∀ x ∈ t.replace r, P x := by
  intro x hx
  obtain ⟨y, hy, rfl⟩ := List.mem_map.mp hx
  split
  · exact hr
  · exact h y hy

theorem find?_update (t : Table ρ) (f : ρ → ρ) (hf : ∀ r, key (f r) = key r) (k : κ) :
    (t.update f hf).find? k = (t.find? k).map f := by
  simp only [find?, update, List.find?_map]
  congr 2
  funext r
  simp [hf]

omit [DecidableEq κ] in
theorem mem_update {t : Table ρ} {f : ρ → ρ} {hf : ∀ r, key (f r) = key r} {y : ρ} :
    y ∈ t.update f hf ↔ ∃ x ∈ t, f x = y := by
  simp [mem_def, update]

-- ════════════════════════════════════════════════════════════════════════
-- A number at a key
-- ════════════════════════════════════════════════════════════════════════

/-- A number of the row at a key, and 0 where there is none. -/
def valueAt (t : Table ρ) (f : ρ → ℕ) (k : κ) : ℕ := (t.find? k).elim 0 f

theorem valueAt_of_find? {t : Table ρ} {f : ρ → ℕ} {k : κ} {r : ρ} (h : t.find? k = some r) :
    t.valueAt f k = f r := by
  rw [valueAt, h, Option.elim_some]

theorem valueAt_insert {t t' : Table ρ} {r : ρ} (h : t.insert? r = some t') (f : ρ → ℕ) (k : κ) :
    t'.valueAt f k = if k = key r then f r else t.valueAt f k := by
  rw [valueAt, find?_insert h]
  split <;> rfl

/-- Nothing was at the key of a new row. -/
theorem valueAt_of_insert {t t' : Table ρ} {r : ρ} (h : t.insert? r = some t') (f : ρ → ℕ) :
    t.valueAt f (key r) = 0 := by
  rw [valueAt, (insert?_eq_some.mp h).1, Option.elim_none]

theorem valueAt_replace {t : Table ρ} {r x : ρ} (h : t.find? (key r) = some x) (f : ρ → ℕ) (k : κ) :
    (t.replace r).valueAt f k = if k = key r then f r else t.valueAt f k := by
  rw [valueAt, find?_replace]
  split
  · rename_i hk
    rw [hk, h, Option.map_some, Option.elim_some]
  · rfl

-- ════════════════════════════════════════════════════════════════════════
-- Properties of the row with a key
-- ════════════════════════════════════════════════════════════════════════

/-- Whether there is a row with a given key and it has a property. -/
def holds (t : Table ρ) (k : κ) (p : ρ → Bool) : Bool :=
  (t.find? k).any p

theorem holds_eq_true {t : Table ρ} {k : κ} {p : ρ → Bool} :
    t.holds k p = true ↔ ∃ r, t.find? k = some r ∧ p r = true :=
  Option.any_eq_true ..

@[simp] theorem holds_empty (k : κ) (p : ρ → Bool) : (empty : Table ρ).holds k p = false := rfl

theorem holds_insert {t t' : Table ρ} {r : ρ} {k : κ} {p : ρ → Bool} (h : t.insert? r = some t')
    (hk : t.holds k p = true) : t'.holds k p = true := by
  obtain ⟨x, hx, hp⟩ := holds_eq_true.mp hk
  exact holds_eq_true.mpr ⟨x, find?_insert_of_some h hx, hp⟩

/-- A row that an insert gives a property to is the inserted one. -/
theorem holds_of_holds_insert {t t' : Table ρ} {r : ρ} {k : κ} {p : ρ → Bool}
    (h : t.insert? r = some t') (hk : t'.holds k p = true) :
    t.holds k p = true ∨ k = key r ∧ p r = true := by
  obtain ⟨x, hx, hp⟩ := holds_eq_true.mp hk
  rw [find?_insert h] at hx
  split at hx
  · rename_i hkey
    obtain rfl := Option.some.inj hx
    exact .inr ⟨hkey, hp⟩
  · exact .inl (holds_eq_true.mpr ⟨x, hx, hp⟩)

theorem holds_replace {t : Table ρ} {r : ρ} {k : κ} {p : ρ → Bool}
    (hr : k = key r → p r = true) (hk : t.holds k p = true) : (t.replace r).holds k p = true := by
  obtain ⟨x, hx, hp⟩ := holds_eq_true.mp hk
  rw [holds_eq_true, find?_replace]
  split
  · rename_i hkey
    exact ⟨r, by rw [hx]; rfl, hr hkey⟩
  · exact ⟨x, hx, hp⟩

/-- A row that an update gives a property to is the updated one. -/
theorem holds_of_holds_replace {t : Table ρ} {r : ρ} {k : κ} {p : ρ → Bool}
    (hk : (t.replace r).holds k p = true) : t.holds k p = true ∨ k = key r ∧ p r = true := by
  obtain ⟨x, hx, hp⟩ := holds_eq_true.mp hk
  rw [find?_replace] at hx
  split at hx
  · rename_i hkey
    obtain ⟨_, _, rfl⟩ := Option.map_eq_some_iff.mp hx
    exact .inr ⟨hkey, hp⟩
  · exact .inl (holds_eq_true.mpr ⟨x, hx, hp⟩)

end Lookup

-- ════════════════════════════════════════════════════════════════════════
-- Ordered selection
-- ════════════════════════════════════════════════════════════════════════

section Select

variable {β : Type*} [LinearOrder β]

/-- The first qualifying row in the order of `rank`. -/
def selectMin (t : Table ρ) (p : ρ → Bool) (rank : ρ → β) : Option ρ :=
  (t.rows.filter p).argmin rank

theorem selectMin_eq_none {t : Table ρ} {p : ρ → Bool} {rank : ρ → β} :
    t.selectMin p rank = none ↔ ∀ r ∈ t, p r = false := by
  simp [selectMin, List.argmin_eq_none, List.filter_eq_nil_iff, mem_def]

theorem selectMin_mem {t : Table ρ} {p : ρ → Bool} {rank : ρ → β} {r : ρ}
    (h : t.selectMin p rank = some r) : r ∈ t ∧ p r = true :=
  List.mem_filter.mp (List.argmin_mem h)

theorem selectMin_le {t : Table ρ} {p : ρ → Bool} {rank : ρ → β} {r x : ρ}
    (h : t.selectMin p rank = some r) (hx : x ∈ t) (hp : p x = true) : rank r ≤ rank x :=
  List.le_of_mem_argmin (List.mem_filter.mpr ⟨hx, hp⟩) h

variable {γ : Type*} [LinearOrder γ]

theorem argmin_congr {rank : ρ → β} {rank' : ρ → γ} {l : List ρ}
    (h : ∀ r ∈ l, ∀ x ∈ l, rank r < rank x ↔ rank' r < rank' x) :
    l.argmin rank = l.argmin rank' := by
  induction l with
  | nil => rfl
  | cons a l ih =>
    have htail := ih fun r hr x hx => h r (List.mem_cons_of_mem a hr) x (List.mem_cons_of_mem a hx)
    rw [List.argmin_cons, List.argmin_cons, htail]
    cases hmin : l.argmin rank' with
    | none => rfl
    | some c =>
      have hc : c ∈ a :: l := List.mem_cons_of_mem a (List.argmin_mem hmin)
      have ha : a ∈ a :: l := List.mem_cons_self
      simp only [h c hc a ha]

/-- Queries that qualify the same rows and order them alike select the same row. -/
theorem selectMin_congr {t : Table ρ} {p q : ρ → Bool} {rank : ρ → β} {rank' : ρ → γ}
    (hp : ∀ r ∈ t, p r = q r)
    (hrank : ∀ r ∈ t, ∀ x ∈ t, p r = true → p x = true →
      (rank r < rank x ↔ rank' r < rank' x)) :
    t.selectMin p rank = t.selectMin q rank' := by
  have hfilter : t.rows.filter p = t.rows.filter q := List.filter_congr hp
  unfold selectMin
  rw [← hfilter]
  refine argmin_congr fun r hr x hx => ?_
  obtain ⟨hmem, hqualifies⟩ := List.mem_filter.mp hr
  obtain ⟨hmem', hqualifies'⟩ := List.mem_filter.mp hx
  exact hrank r hmem x hmem' hqualifies hqualifies'

end Select

-- ════════════════════════════════════════════════════════════════════════
-- Columns of the qualifying rows
-- ════════════════════════════════════════════════════════════════════════

section Collect

variable {γ : Type*}

/-- A column of the qualifying rows, in the order of their insertion. -/
def collect (t : Table ρ) (p : ρ → Bool) (g : ρ → γ) : List γ := (t.rows.filter p).map g

theorem collect_insert [DecidableEq κ] {t t' : Table ρ} {r : ρ} (h : t.insert? r = some t')
    (p : ρ → Bool) (g : ρ → γ) :
    t'.collect p g = t.collect p g ++ if p r then [g r] else [] := by
  rw [collect, (insert?_eq_some.mp h).2, List.filter_append, List.map_append]
  by_cases hp : p r <;> simp [collect, hp]

/-- A replacement that agrees with the old row on the column and on whether it
    qualifies. -/
theorem collect_replace [DecidableEq κ] {t : Table ρ} {r x : ρ} (h : t.find? (key r) = some x)
    {p : ρ → Bool} {g : ρ → γ} (hp : p r = p x) (hg : g r = g x) :
    (t.replace r).collect p g = t.collect p g := by
  have hx : ∀ y ∈ t.rows, key y = key r → y = x := fun y hy he =>
    eq_of_key_eq hy (mem_of_find? h) (he.trans (key_of_find? h).symm)
  have hfilter : ∀ rows : List ρ, (∀ y ∈ rows, key y = key r → y = x) →
      ((rows.map fun y => if key y = key r then r else y).filter p).map g =
        (rows.filter p).map g := by
    intro rows hrows
    induction rows with
    | nil => rfl
    | cons y ys ih =>
      have hys := ih fun z hz => hrows z (List.mem_cons_of_mem _ hz)
      rw [List.map_cons]
      by_cases he : key y = key r
      · obtain rfl := hrows y List.mem_cons_self he
        rw [if_pos he, List.filter_cons, List.filter_cons, hp]
        split
        · rw [List.map_cons, List.map_cons, hg, hys]
        · exact hys
      · rw [if_neg he, List.filter_cons, List.filter_cons]
        split
        · rw [List.map_cons, List.map_cons, hys]
        · exact hys
  exact hfilter t.rows hx

/-- A column without repetitions determines its row. -/
theorem eq_of_collect_nodup {t : Table ρ} {p : ρ → Bool} {g : ρ → γ}
    (h : (t.collect p g).Nodup) {r x : ρ} (hr : r ∈ t) (hx : x ∈ t) (hpr : p r = true)
    (hpx : p x = true) (hg : g r = g x) : r = x :=
  List.inj_on_of_nodup_map h (List.mem_filter.mpr ⟨hr, hpr⟩) (List.mem_filter.mpr ⟨hx, hpx⟩) hg

theorem mem_collect {t : Table ρ} {p : ρ → Bool} {g : ρ → γ} {r : ρ} (hr : r ∈ t)
    (hp : p r = true) : g r ∈ t.collect p g :=
  List.mem_map_of_mem (List.mem_filter.mpr ⟨hr, hp⟩)

end Collect

-- ════════════════════════════════════════════════════════════════════════
-- Sums over all rows
-- ════════════════════════════════════════════════════════════════════════

/-- The sum of a quantity over all rows. -/
def sum (t : Table ρ) (f : ρ → ℕ) : ℕ := (t.rows.map f).sum

@[simp] theorem sum_empty (f : ρ → ℕ) : (empty : Table ρ).sum f = 0 := rfl

theorem sum_insert [DecidableEq κ] {t t' : Table ρ} {r : ρ} (h : t.insert? r = some t') (f : ρ → ℕ) :
    t'.sum f = t.sum f + f r := by
  simp [sum, (insert?_eq_some.mp h).2]

theorem sum_update (t : Table ρ) (g : ρ → ρ) (hg : ∀ r, key (g r) = key r) (f : ρ → ℕ) :
    (t.update g hg).sum f = t.sum fun r => f (g r) := by
  simp [sum, update, Function.comp_def]

theorem sum_indicator (t : Table ρ) {γ : Type*} (p : ρ → Bool) (g : ρ → γ) :
    t.sum (fun r => if p r then 1 else 0) = (t.collect p g).length := by
  rw [collect, List.length_map, sum]
  induction t.rows with
  | nil => rfl
  | cons r rows ih =>
    rw [List.map_cons, List.sum_cons, ih, List.filter_cons]
    split
    · rw [List.length_cons, add_comm]
    · rw [zero_add]

theorem sum_congr {t : Table ρ} {f g : ρ → ℕ} (h : ∀ r ∈ t, f r = g r) :
    t.sum f = t.sum g := by
  unfold sum
  rw [List.map_congr_left h]

theorem sum_le_sum {t : Table ρ} {f g : ρ → ℕ} (h : ∀ r ∈ t, f r ≤ g r) :
    t.sum f ≤ t.sum g := by
  exact List.sum_le_sum h

theorem le_sum_of_mem {t : Table ρ} {r : ρ} (h : r ∈ t) (f : ρ → ℕ) : f r ≤ t.sum f :=
  List.single_le_sum (by simp) _ (List.mem_map_of_mem h)

/-- Splitting off one row: what the others add up to does not depend on it. -/
theorem sum_eq_add [DecidableEq κ] {t : Table ρ} {r : ρ} (h : r ∈ t) (f : ρ → ℕ) :
    t.sum f = f r + t.sum fun x => if key x = key r then 0 else f x := by
  obtain ⟨rows, hd⟩ := t
  have hr : r ∈ rows := h
  simp only [sum]
  clear h
  induction rows with
  | nil => simp at hr
  | cons x xs ih =>
    rw [List.map_cons, List.nodup_cons] at hd
    simp only [List.map_cons, List.sum_cons]
    rcases List.mem_cons.mp hr with rfl | hxs
    · have : (xs.map fun y => if key y = key r then 0 else f y) = xs.map f := by
        apply List.map_congr_left
        intro y hy
        rw [if_neg]
        intro he
        exact hd.1 (List.mem_map.mpr ⟨y, hy, he⟩)
      rw [this, if_pos rfl]
      omega
    · have hne : ¬key x = key r := by
        intro he
        exact hd.1 (List.mem_map.mpr ⟨r, hxs, he.symm⟩)
      have := ih hd.2 hxs
      rw [if_neg hne]
      omega

/-- A sum of indicators that reaches two has two rows. -/
theorem exists_ne_of_two_le_sum [DecidableEq κ] {t : Table ρ} {p : ρ → Prop} [DecidablePred p]
    (h : 2 ≤ t.sum fun r => if p r then 1 else 0) :
    ∃ r ∈ t, ∃ x ∈ t, key r ≠ key x ∧ p r ∧ p x := by
  have hpos {f : ρ → ℕ} (hf : 0 < t.sum f) : ∃ r ∈ t, f r ≠ 0 := by
    by_contra hall
    push Not at hall
    have hzero : t.sum f = t.sum fun _ => 0 := sum_congr hall
    simp [sum] at hzero hf
    omega
  obtain ⟨r, hr, hpr⟩ := hpos (show 0 < t.sum fun r => if p r then 1 else 0 by omega)
  have hpr : p r := by simpa using hpr
  rw [sum_eq_add hr, if_pos hpr] at h
  obtain ⟨x, hx, hpx⟩ :=
    hpos (show 0 < t.sum fun x => if key x = key r then 0 else if p x then 1 else 0 by omega)
  simp only [ne_eq, ite_eq_left_iff, not_forall, exists_prop] at hpx
  exact ⟨r, hr, x, hx, fun he => hpx.1 he.symm, hpr, by simpa using hpx.2⟩

/-- Two rows that qualify make a sum of indicators reach two. -/
theorem two_le_sum_of_ne [DecidableEq κ] {t : Table ρ} {p : ρ → Prop} [DecidablePred p] {r x : ρ}
    (hr : r ∈ t) (hx : x ∈ t) (hne : key r ≠ key x) (hpr : p r) (hpx : p x) :
    2 ≤ t.sum fun y => if p y then 1 else 0 := by
  have hsplit := sum_eq_add hr fun y => if p y then 1 else 0
  have hle := le_sum_of_mem hx fun y => if key y = key r then 0 else if p y then 1 else 0
  rw [if_pos hpr] at hsplit
  rw [if_neg fun he => hne he.symm, if_pos hpx] at hle
  omega

theorem eq_zero_of_sum_eq_zero {t : Table ρ} {f : ρ → ℕ} (h : t.sum f = 0) :
    ∀ r ∈ t, f r = 0 := by
  intro r hr
  have := le_sum_of_mem hr f
  omega

/-- A sum of one has a single row that contributes. -/
theorem exists_of_sum_eq_one [DecidableEq κ] {t : Table ρ} {f : ρ → ℕ} (h : t.sum f = 1) :
    ∃ r ∈ t, f r = 1 ∧ ∀ x ∈ t, x ≠ r → f x = 0 := by
  have hne : ∃ r ∈ t, f r ≠ 0 := by
    by_contra hall
    push Not at hall
    have := sum_congr (g := fun _ => 0) hall
    rw [h] at this
    simp [sum] at this
  obtain ⟨r, hr, hfr⟩ := hne
  have hsplit := sum_eq_add hr f
  refine ⟨r, hr, by omega, fun x hx hxr => ?_⟩
  have hzero := eq_zero_of_sum_eq_zero (f := fun x => if key x = key r then 0 else f x)
    (by omega) x hx
  rwa [if_neg fun he => hxr (eq_of_key_eq hx hr he)] at hzero

/-- After a replacement: the new row and what the others add up to. -/
theorem sum_replace_eq_add [DecidableEq κ] {t : Table ρ} {r x : ρ} (h : t.find? (key r) = some x)
    (f : ρ → ℕ) :
    (t.replace r).sum f = f r + t.sum fun y => if key y = key r then 0 else f y := by
  have hr : r ∈ t.replace r := (mem_replace h).mpr (.inl rfl)
  rw [sum_eq_add hr f]
  congr 1
  unfold sum replace
  rw [List.map_map]
  congr 1
  apply List.map_congr_left
  intro y _
  simp only [Function.comp_apply]
  by_cases hy : key y = key r <;> simp [hy]

theorem sum_replace [DecidableEq κ] {t : Table ρ} {r x : ρ} (h : t.find? (key r) = some x) (f : ρ → ℕ) :
    (t.replace r).sum f + f x = t.sum f + f r := by
  have hnew := sum_replace_eq_add h f
  have hold := sum_eq_add (mem_of_find? h) f
  rw [key_of_find? h] at hold
  omega

end Table
