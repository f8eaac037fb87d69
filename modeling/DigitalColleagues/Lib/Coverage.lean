import Mathlib.Algebra.BigOperators.Group.List.Basic
import Mathlib.Algebra.Order.BigOperators.Group.List
import Mathlib.Algebra.Order.Ring.Nat
import Mathlib.Data.List.Nodup
import Mathlib.Tactic.Common

/-!
# Coverage of keys by observations

Observations that each carry a key, and a list of distinct keys that should be
observed. How many observations fall on the keys says whether every key is
observed only as far as keys observed twice do not stand in for keys not
observed at all.

## Main definitions

- `Coverage.on` — the observations of some keys
- `Coverage.Covers` — every key is observed
- `Coverage.surplus`, `Coverage.unobserved` — how far the count is off
- `Coverage.CountsOnce` — a total that takes one observation of each key
-/

namespace Coverage

variable {κ ω : Type} [DecidableEq κ] (key : ω → κ)

/-- The observations of the keys. -/
def on (keys : List κ) (obs : List ω) : List ω := obs.filter fun o => decide (key o ∈ keys)

/-- The observations of one key. -/
def of (obs : List ω) (k : κ) : List ω := obs.filter fun o => decide (key o = k)

/-- Every key is observed. -/
def Covers (keys : List κ) (obs : List ω) : Prop := ∀ k ∈ keys, ∃ o ∈ obs, key o = k

/-- The observations of keys beyond their first. -/
def surplus (keys : List κ) (obs : List ω) : ℕ :=
  (keys.map fun k => (of key obs k).length - 1).sum

/-- The keys without an observation. -/
def unobserved (keys : List κ) (obs : List ω) : ℕ :=
  keys.countP fun k => decide ((of key obs k).length = 0)

/-- A total to which every key contributes the value of one of its observations. -/
def CountsOnce (value : ω → ℕ) (keys : List κ) (obs : List ω) (total : ℕ) : Prop :=
  ∃ judged, judged ⊆ obs ∧ judged.map key = keys ∧ total = (judged.map value).sum

variable {key} {keys : List κ} {obs : List ω}

theorem mem_of {k : κ} {o : ω} : o ∈ of key obs k ↔ o ∈ obs ∧ key o = k := by
  simp [of]

theorem mem_on {o : ω} : o ∈ on key keys obs ↔ o ∈ obs ∧ key o ∈ keys := by
  simp [on]

/-- A sum over the observations of the keys is taken key by key. -/
theorem sum_on (f : ω → ℕ) (hkeys : keys.Nodup) (obs : List ω) :
    ((on key keys obs).map f).sum = (keys.map fun k => ((of key obs k).map f).sum).sum := by
  induction obs with
  | nil => simp [on, of]
  | cons o obs ih =>
    have hof (k : κ) : ((of key (o :: obs) k).map f).sum =
        (if key o = k then f o else 0) + ((of key obs k).map f).sum := by
      by_cases hk : key o = k <;> simp [of, hk]
    have hpick : (keys.map fun k => if key o = k then f o else 0).sum =
        if key o ∈ keys then f o else 0 := by
      clear ih
      induction keys with
      | nil => simp
      | cons k ks ih =>
        obtain ⟨hk, hks⟩ := List.nodup_cons.mp hkeys
        rw [List.map_cons, List.sum_cons, ih hks]
        by_cases he : key o = k
        · simp [he, hk]
        · simp [he]
    have hon : ((on key keys (o :: obs)).map f).sum =
        (if key o ∈ keys then f o else 0) + ((on key keys obs).map f).sum := by
      by_cases hk : key o ∈ keys <;> simp [on, hk]
    rw [hon, ih, ← hpick, ← List.sum_map_add]
    simp only [hof]

theorem length_on (hkeys : keys.Nodup) :
    (on key keys obs).length = (keys.map fun k => (of key obs k).length).sum := by
  have h : ((on key keys obs).map fun _ => 1).sum =
      (keys.map fun k => ((of key obs k).map fun _ => 1).sum).sum := sum_on _ hkeys obs
  simpa only [List.map_const', List.sum_replicate_nat, mul_one] using h

/-- What the count exceeds the keys by, and what it lacks. -/
theorem length_on_add_unobserved (hkeys : keys.Nodup) (obs : List ω) :
    (on key keys obs).length + unobserved key keys obs =
      keys.length + surplus key keys obs := by
  rw [length_on hkeys]
  clear hkeys
  induction keys with
  | nil => rfl
  | cons k ks ih =>
    simp only [unobserved, surplus, List.map_cons, List.sum_cons, List.countP_cons,
      List.length_cons, decide_eq_true_eq] at ih ⊢
    by_cases hk : (of key obs k).length = 0
    · simp only [hk, if_true]
      omega
    · simp only [hk, if_false]
      omega

theorem unobserved_eq_zero : unobserved key keys obs = 0 ↔ Covers key keys obs := by
  simp only [unobserved, List.countP_eq_zero, decide_eq_true_eq]
  refine forall₂_congr fun k _ => ?_
  rw [← Ne, ← Nat.pos_iff_ne_zero, List.length_pos_iff_exists_mem]
  simp only [mem_of]

/-- The count tells coverage exactly when no surplus makes up for what is missing. -/
theorem length_on_eq_iff (hkeys : keys.Nodup) (obs : List ω) :
    (on key keys obs).length = keys.length ↔
      surplus key keys obs = unobserved key keys obs := by
  have h : (on key keys obs).length + unobserved key keys obs =
      keys.length + surplus key keys obs := length_on_add_unobserved hkeys obs
  omega

/-- Keys that are covered by as many observations are observed once each. -/
theorem of_eq_singleton (hcovers : Covers key keys obs)
    (hlength : (on key keys obs).length = keys.length) (hkeys : keys.Nodup) {k : κ}
    (hk : k ∈ keys) : ∃ o, of key obs k = [o] := by
  have hsurplus : surplus key keys obs = 0 := by
    rw [(length_on_eq_iff hkeys obs).mp hlength, unobserved_eq_zero.mpr hcovers]
  have hle : (of key obs k).length - 1 = 0 :=
    List.sum_eq_zero_iff.mp hsurplus _ (List.mem_map_of_mem hk)
  have hpos : 0 < (of key obs k).length := by
    obtain ⟨o, ho, hko⟩ := hcovers k hk
    exact List.length_pos_of_mem (mem_of.mpr ⟨ho, hko⟩)
  exact List.length_eq_one_iff.mp (by omega)

/-- Then the sum over the observations takes each key once. -/
theorem countsOnce (value : ω → ℕ) (hcovers : Covers key keys obs)
    (hlength : (on key keys obs).length = keys.length) (hkeys : keys.Nodup) :
    CountsOnce key value keys obs ((on key keys obs).map value).sum := by
  rw [sum_on value hkeys]
  have hsingle : ∀ k ∈ keys, ∃ o, of key obs k = [o] :=
    fun k hk => of_eq_singleton hcovers hlength hkeys hk
  clear hcovers hlength hkeys
  induction keys with
  | nil => exact ⟨[], List.nil_subset _, rfl, rfl⟩
  | cons k ks ih =>
    obtain ⟨o, ho⟩ := hsingle k List.mem_cons_self
    obtain ⟨hmem, hkey⟩ := mem_of.mp (ho ▸ List.mem_singleton_self o)
    obtain ⟨judged, hsub, hkeys, hsum⟩ := ih fun k' hk' => hsingle k' (List.mem_cons_of_mem _ hk')
    refine ⟨o :: judged, List.cons_subset.mpr ⟨hmem, hsub⟩, by rw [List.map_cons, hkey, hkeys], ?_⟩
    rw [List.map_cons, List.sum_cons, ho, hsum]
    simp

/-- Values of at most one add up to at most the number of observations. -/
theorem sum_le_length {value : ω → ℕ} (h : ∀ o ∈ obs, value o ≤ 1) :
    (obs.map value).sum ≤ obs.length := by
  have hle := List.sum_le_card_nsmul (obs.map value) 1 (by simpa using h)
  simpa using hle

end Coverage
