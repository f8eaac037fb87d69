import DigitalColleagues.Lib.Table

/-!
# Fencing tokens

Leases on a resource carry the token that the resource had when they were
issued. As long as the token of a resource never falls and every new lease
raises it, a lease that was followed by another one on the same resource has a
token of the past.

## Main definitions

- `Rises` — tokens that are kept or raised
- `Fenced` — the tokens of the leases issued so far
-/

/-- Every resource with a token keeps one that is not lower. -/
def Rises {κ : Type*} (cur cur' : κ → Option ℕ) : Prop :=
  ∀ k n, cur k = some n → ∃ n', cur' k = some n' ∧ n ≤ n'

namespace Rises

variable {κ : Type*} {cur cur' : κ → Option ℕ}

theorem refl (cur : κ → Option ℕ) : Rises cur cur := fun _ n h => ⟨n, h, le_rfl⟩

/-- A new resource takes no token away. -/
theorem of_some (h : ∀ k n, cur k = some n → cur' k = some n) : Rises cur cur' :=
  fun k n hn => ⟨n, h k n hn, le_rfl⟩

theorem trans {cur'' : κ → Option ℕ} (h : Rises cur cur') (h' : Rises cur' cur'') :
    Rises cur cur'' := by
  intro k n hn
  obtain ⟨n', hn', hle⟩ := h k n hn
  obtain ⟨n'', hn'', hle'⟩ := h' k n' hn'
  exact ⟨n'', hn'', hle.trans hle'⟩

/-- A token that was raised once does not come back. -/
theorem ne_of_raised {k : κ} {n n' : ℕ} (h : Rises cur cur') (hn' : cur k = some n')
    (hlt : n < n') : cur' k ≠ some n := by
  intro hn
  obtain ⟨m, hm, hle⟩ := h k n' hn'
  obtain rfl := Option.some.inj (hn.symm.trans hm)
  exact absurd hlt (Nat.not_lt.mpr hle)

end Rises

/-- The tokens of all leases issued so far, in the order of their issue: none is
    ahead of its resource, and they increase for each resource. -/
structure Fenced {κ γ : Type*} (resource : γ → κ) (token : γ → ℕ) (cur : κ → Option ℕ)
    (issued : List γ) : Prop where
  bounded : ∀ c ∈ issued, ∃ n, cur (resource c) = some n ∧ token c ≤ n
  increasing : issued.Pairwise fun c c' => resource c = resource c' → token c < token c'

namespace Fenced

variable {κ γ : Type*} {resource : γ → κ} {token : γ → ℕ} {cur cur' : κ → Option ℕ}
  {issued : List γ}

theorem nil (resource : γ → κ) (token : γ → ℕ) (cur : κ → Option ℕ) :
    Fenced resource token cur [] :=
  ⟨fun _ hc => absurd hc List.not_mem_nil, .nil⟩

theorem mono (h : Fenced resource token cur issued) (hrises : Rises cur cur') :
    Fenced resource token cur' issued where
  bounded c hc := by
    obtain ⟨n, hn, hle⟩ := h.bounded c hc
    obtain ⟨n', hn', hle'⟩ := hrises _ n hn
    exact ⟨n', hn', hle.trans hle'⟩
  increasing := h.increasing

/-- A new lease that raises the token of its resource. -/
theorem issue (h : Fenced resource token cur issued) (hrises : Rises cur cur') (c : γ) {n : ℕ}
    (hold : cur (resource c) = some n) (hnew : cur' (resource c) = some (token c))
    (hlt : n < token c) : Fenced resource token cur' (issued ++ [c]) where
  bounded x hx := by
    rcases List.mem_append.mp hx with hx | hx
    · exact (h.mono hrises).bounded x hx
    · obtain rfl := List.mem_singleton.mp hx
      exact ⟨token x, hnew, le_rfl⟩
  increasing := by
    refine List.pairwise_append.mpr ⟨h.increasing, List.pairwise_singleton _ _, ?_⟩
    intro x hx y hy heq
    obtain rfl := List.mem_singleton.mp hy
    obtain ⟨m, hm, hle⟩ := h.bounded x hx
    rw [heq, hold] at hm
    obtain rfl := Option.some.inj hm
    exact hle.trans_lt hlt

/-- Of two leases on one resource the later one has the higher token. -/
theorem lt_of_sublist (h : Fenced resource token cur issued) {c c' : γ}
    (hlater : [c, c'].Sublist issued) (hsame : resource c = resource c') : token c < token c' :=
  List.pairwise_iff_forall_sublist.mp h.increasing hlater hsame

/-- The token of a lease that was followed by another one lies in the past. -/
theorem stale (h : Fenced resource token cur issued) {c c' : γ}
    (hlater : [c, c'].Sublist issued) (hsame : resource c = resource c') :
    cur (resource c) ≠ some (token c) := by
  intro hcur
  have hmem : c' ∈ issued := hlater.subset (by simp)
  obtain ⟨n, hn, hle⟩ := h.bounded c' hmem
  rw [← hsame, hcur] at hn
  obtain rfl := Option.some.inj hn
  exact absurd (h.lt_of_sublist hlater hsame) (Nat.not_lt.mpr hle)

end Fenced

-- ════════════════════════════════════════════════════════════════════════
-- Tokens in a table
-- ════════════════════════════════════════════════════════════════════════

namespace Table

variable {ρ κ : Type*} [Keyed ρ κ] [DecidableEq κ] {t t' : Table ρ} {token : ρ → ℕ}

/-- The token of the row with a key. -/
def tokenOf (t : Table ρ) (token : ρ → ℕ) (k : κ) : Option ℕ := (t.find? k).map token

theorem tokenOf_eq_some {k : κ} {r : ρ} (h : t.find? k = some r) :
    t.tokenOf token k = some (token r) := by
  rw [tokenOf, h, Option.map_some]

theorem rises_insert {r : ρ} (h : t.insert? r = some t') :
    Rises (t.tokenOf token) (t'.tokenOf token) := by
  refine .of_some fun k n hn => ?_
  obtain ⟨x, hx, rfl⟩ := Option.map_eq_some_iff.mp hn
  exact tokenOf_eq_some (find?_insert_of_some h hx)

theorem rises_replace {r x : ρ} (hx : t.find? (Keyed.key r) = some x) (hle : token x ≤ token r) :
    Rises (t.tokenOf token) ((t.replace r).tokenOf token) := by
  intro k n hn
  obtain ⟨y, hy, rfl⟩ := Option.map_eq_some_iff.mp hn
  by_cases hk : k = Keyed.key r
  · subst hk
    obtain rfl := Option.some.inj (hx.symm.trans hy)
    exact ⟨token r, tokenOf_eq_some (find?_replace_self hy), hle⟩
  · exact ⟨token y, tokenOf_eq_some ((find?_replace_of_ne hk).trans hy), le_rfl⟩

end Table
