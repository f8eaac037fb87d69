import Mathlib.Data.List.Chain
import Mathlib.Data.List.Nodup
import Mathlib.Data.List.Perm.Subperm
import Mathlib.Logic.Relation
import Mathlib.Tactic.Common

/-!
# Depth-first search

A depth-first search over a graph that is given by its successors, with marks
for the nodes that it is in the middle of and for those that it is done with.
It raises when it comes back to a node that it is in the middle of, and when
its calls nest too deeply.

The nodes that a search is done with are listed latest first, so that each of
them comes before its successors; the nodes that it is in the middle of lead to
the one that it visits. The first makes the finished search an ordering of the
graph, the second makes the failed search a cycle.

## Main definitions

- `Marks` — the nodes in progress and the nodes done
- `visit`, `visitAll` — the search from one node and from several
- `Edge` — the successor relation
- `Ordered` — lists in which every node stands before its successors
- `lookup`, `successors`, `Leads` — the graph of items that name each other by keys

## Main results

- `ordered_of_visitAll` — what a search that returns has done
- `exists_cycle_of_visitAll` — why a search fails
- `visitAll_ne_exhausted` — how deeply the calls nest
-/

-- ═══════════════════════════════════════════════════════════════════
-- Loops that may fail
-- ═══════════════════════════════════════════════════════════════════

section Loops

variable {ε α β : Type*} {f : β → α → Except ε β} {p : β → Prop}

/-- What every round of a loop keeps, the loop keeps. -/
theorem foldlM_keeps {l : List α} (hstep : ∀ a ∈ l, ∀ b b', p b → f b a = .ok b' → p b') {b b' : β}
    (hb : p b) (h : l.foldlM f b = .ok b') : p b' := by
  induction l generalizing b with
  | nil =>
    obtain rfl : b = b' := Except.ok.inj h
    exact hb
  | cons a l ih =>
    rw [List.foldlM_cons] at h
    cases hfa : f b a with
    | error e => rw [hfa] at h; exact absurd h (by simp [bind, Except.bind])
    | ok c =>
      rw [hfa] at h
      exact ih (fun a' ha' => hstep a' (List.mem_cons_of_mem _ ha'))
        (hstep a (List.mem_cons_self ..) b c hb hfa) h

/-- A loop that fails does so in one of its rounds. -/
theorem exists_of_foldlM_error {l : List α}
    (hstep : ∀ a ∈ l, ∀ b b', p b → f b a = .ok b' → p b') {b : β} {e : ε} (hb : p b)
    (h : l.foldlM f b = .error e) : ∃ a ∈ l, ∃ b', p b' ∧ f b' a = .error e := by
  induction l generalizing b with
  | nil => exact absurd h (by simp [pure, Except.pure])
  | cons a l ih =>
    rw [List.foldlM_cons] at h
    cases hfa : f b a with
    | error e' =>
      rw [hfa] at h
      obtain rfl : e' = e := Except.error.inj h
      exact ⟨a, List.mem_cons_self .., b, hb, hfa⟩
    | ok c =>
      rw [hfa] at h
      obtain ⟨a', ha', b', hb', herr⟩ := ih (fun a' ha' => hstep a' (List.mem_cons_of_mem _ ha'))
        (hstep a (List.mem_cons_self ..) b c hb hfa) h
      exact ⟨a', List.mem_cons_of_mem _ ha', b', hb', herr⟩

/-- A loop whose rounds all return from what they keep returns. -/
theorem exists_foldlM_ok {l : List α}
    (hstep : ∀ a ∈ l, ∀ b, p b → ∃ b', f b a = .ok b' ∧ p b') {b : β} (hb : p b) :
    ∃ b', l.foldlM f b = .ok b' ∧ p b' := by
  induction l generalizing b with
  | nil => exact ⟨b, rfl, hb⟩
  | cons a l ih =>
    obtain ⟨c, hc, hpc⟩ := hstep a (List.mem_cons_self ..) b hb
    obtain ⟨b', hb', hpb'⟩ := ih (fun a' ha' => hstep a' (List.mem_cons_of_mem _ ha')) hpc
    refine ⟨b', ?_, hpb'⟩
    rw [List.foldlM_cons, hc]
    exact hb'

end Loops

namespace DepthFirst

/-- How a search fails: at a cycle, or with its calls nested too deeply. -/
inductive Halt
  | cycle
  | exhausted
deriving DecidableEq

/-- The nodes that a search is in the middle of, and those that it is done with, each
    with the latest first. -/
structure Marks (κ : Type*) where
  visiting : List κ
  visited : List κ

variable {κ : Type*} (next : κ → List κ)

/-- The successor relation. -/
def Edge (a b : κ) : Prop := b ∈ next a

/-- Every node of the list stands before its successors, none of them twice. -/
inductive Ordered : List κ → Prop
  | nil : Ordered []
  | cons {k : κ} {l : List κ} (hk : k ∉ l) (hnext : ∀ j ∈ next k, j ∈ l) (hl : Ordered l) :
      Ordered (k :: l)

section Search

variable [DecidableEq κ]

/-- The search from one node, with calls that nest at most `depth` deep. -/
def visit : ℕ → Marks κ → κ → Except Halt (Marks κ)
  | 0, _, _ => .error .exhausted
  | depth + 1, m, k =>
    if k ∈ m.visiting then .error .cycle
    else if k ∈ m.visited then .ok m
    else do
      let m ← (next k).foldlM (visit depth) { m with visiting := k :: m.visiting }
      .ok { visiting := m.visiting.erase k, visited := k :: m.visited }

/-- The search from the given nodes, one after the other. -/
def visitAll (depth : ℕ) (roots : List κ) : Except Halt (Marks κ) :=
  roots.foldlM (visit next depth) ⟨[], []⟩

-- ═══════════════════════════════════════════════════════════════════
-- One visit
-- ═══════════════════════════════════════════════════════════════════

variable {next} {nodes : List κ} {depth : ℕ} {m m' : Marks κ} {k : κ}

/-- A visit that returns found a node that was done with, or is done with it now. -/
theorem cases_of_visit (h : visit next (depth + 1) m k = .ok m') :
    k ∉ m.visiting ∧ (k ∈ m.visited ∧ m' = m ∨ k ∉ m.visited ∧ ∃ t,
      (next k).foldlM (visit next depth) { m with visiting := k :: m.visiting } = .ok t ∧
        m' = { visiting := t.visiting.erase k, visited := k :: t.visited }) := by
  rw [visit] at h
  by_cases hvisiting : k ∈ m.visiting
  · rw [if_pos hvisiting] at h
    exact absurd h (by simp)
  by_cases hvisited : k ∈ m.visited
  · rw [if_neg hvisiting, if_pos hvisited] at h
    exact ⟨hvisiting, .inl ⟨hvisited, (Except.ok.inj h).symm⟩⟩
  · rw [if_neg hvisiting, if_neg hvisited] at h
    refine ⟨hvisiting, .inr ⟨hvisited, ?_⟩⟩
    cases hloop : (next k).foldlM (visit next depth) { m with visiting := k :: m.visiting } with
    | error e => rw [hloop] at h; exact absurd h (by simp [bind, Except.bind])
    | ok t =>
      rw [hloop] at h
      exact ⟨t, rfl, (Except.ok.inj h).symm⟩

/-- A visit that fails came back to a node in progress, or fails below its node. -/
theorem cases_of_visit_error {e : Halt} (h : visit next (depth + 1) m k = .error e) :
    k ∈ m.visiting ∧ e = .cycle ∨ k ∉ m.visiting ∧
      (next k).foldlM (visit next depth) { m with visiting := k :: m.visiting } = .error e := by
  rw [visit] at h
  by_cases hvisiting : k ∈ m.visiting
  · rw [if_pos hvisiting] at h
    exact .inl ⟨hvisiting, (Except.error.inj h).symm⟩
  by_cases hvisited : k ∈ m.visited
  · rw [if_neg hvisiting, if_pos hvisited] at h
    exact absurd h (by simp)
  · rw [if_neg hvisiting, if_neg hvisited] at h
    refine .inr ⟨hvisiting, ?_⟩
    cases hloop : (next k).foldlM (visit next depth) { m with visiting := k :: m.visiting } with
    | error e' => rw [hloop] at h; exact congrArg Except.error (Except.error.inj h)
    | ok t => rw [hloop] at h; exact absurd h (by simp [bind, Except.bind])

/-- A visit leaves the nodes in progress as they were. -/
theorem visiting_of_visit (h : visit next depth m k = .ok m') : m'.visiting = m.visiting := by
  induction depth generalizing m m' k with
  | zero => exact absurd h (by simp [visit])
  | succ depth ih =>
    obtain ⟨-, ⟨-, rfl⟩ | ⟨-, t, hloop, rfl⟩⟩ := cases_of_visit h
    · rfl
    · have ht : t.visiting = k :: m.visiting :=
        foldlM_keeps (p := fun t => t.visiting = k :: m.visiting)
          (fun j _ b b' hb hj => (ih hj).trans hb) rfl hloop
      simp only [ht, List.erase_cons_head]

/-- A loop of visits that fails does so at a visit with the same nodes in progress. -/
theorem exists_of_visits_error {ks : List κ} {e : Halt}
    (h : ks.foldlM (visit next depth) m = .error e) :
    ∃ k ∈ ks, ∃ t, t.visiting = m.visiting ∧ visit next depth t k = .error e :=
  exists_of_foldlM_error (p := fun t => t.visiting = m.visiting)
    (fun _ _ _ _ hb hk => (visiting_of_visit hk).trans hb) rfl h

-- ═══════════════════════════════════════════════════════════════════
-- Searches that return
-- ═══════════════════════════════════════════════════════════════════

variable (next nodes) in
/-- The nodes done with are ordered, and none of them is in progress. -/
structure Sound (m : Marks κ) : Prop where
  ordered : Ordered next m.visited
  apart : ∀ k ∈ m.visited, k ∉ m.visiting
  inside : m.visited ⊆ nodes

variable (next nodes) in
/-- What a search from `ks` that returns has done to the marks. -/
structure Searched (ks : List κ) (m m' : Marks κ) : Prop where
  sound : Sound next nodes m'
  visiting : m'.visiting = m.visiting
  grows : m.visited ⊆ m'.visited
  done : ks ⊆ m'.visited

/-- A loop of visits searches from all of its nodes. -/
theorem searched_of_foldlM {ks : List κ}
    (hvisit : ∀ k ∈ ks, ∀ m m', Sound next nodes m → visit next depth m k = .ok m' →
      Searched next nodes [k] m m')
    (hm : Sound next nodes m) (h : ks.foldlM (visit next depth) m = .ok m') :
    Searched next nodes ks m m' := by
  induction ks generalizing m with
  | nil =>
    obtain rfl : m = m' := Except.ok.inj h
    exact ⟨hm, rfl, List.Subset.refl _, List.nil_subset _⟩
  | cons k ks ih =>
    rw [List.foldlM_cons] at h
    cases hk : visit next depth m k with
    | error e => rw [hk] at h; exact absurd h (by simp [bind, Except.bind])
    | ok t =>
      rw [hk] at h
      have hfirst := hvisit k (List.mem_cons_self ..) m t hm hk
      have hrest := ih (fun j hj => hvisit j (List.mem_cons_of_mem _ hj)) hfirst.sound h
      refine ⟨hrest.sound, hrest.visiting.trans hfirst.visiting,
        List.Subset.trans hfirst.grows hrest.grows, List.cons_subset.mpr ⟨?_, hrest.done⟩⟩
      exact hrest.grows (hfirst.done (List.mem_singleton_self k))

/-- A visit puts its node after all of its successors. -/
theorem searched_of_visit (hclosed : ∀ a ∈ nodes, next a ⊆ nodes) (hk : k ∈ nodes)
    (hm : Sound next nodes m) (h : visit next depth m k = .ok m') :
    Searched next nodes [k] m m' := by
  have hvisiting := visiting_of_visit h
  induction depth generalizing m m' k with
  | zero => exact absurd h (by simp [visit])
  | succ depth ih =>
    obtain ⟨hnot, ⟨hdone, rfl⟩ | ⟨hnew, t, hloop, rfl⟩⟩ := cases_of_visit h
    · exact ⟨hm, rfl, List.Subset.refl _, List.cons_subset.mpr ⟨hdone, List.nil_subset _⟩⟩
    · have hstart : Sound next nodes { m with visiting := k :: m.visiting } := by
        refine ⟨hm.ordered, fun j hj hmem => ?_, hm.inside⟩
        obtain rfl | hmem := List.mem_cons.mp hmem
        · exact hnew hj
        · exact hm.apart j hj hmem
      have hall : Searched next nodes (next k) _ t := searched_of_foldlM
        (fun j hj _ _ hb hjok => ih (hclosed k hk hj) hb hjok (visiting_of_visit hjok)) hstart hloop
      have hfresh : k ∉ t.visited := fun hmem =>
        hall.sound.apart k hmem (hall.visiting ▸ List.mem_cons_self ..)
      refine ⟨⟨.cons hfresh (fun j hj => hall.done hj) hall.sound.ordered, ?_, ?_⟩, hvisiting,
        List.subset_cons_of_subset _ hall.grows, List.cons_subset.mpr ⟨?_, List.nil_subset _⟩⟩
      · intro j hj hmem
        rw [hvisiting] at hmem
        obtain rfl | hj := List.mem_cons.mp hj
        · exact hnot hmem
        · exact hall.sound.apart j hj (hall.visiting ▸ List.mem_cons_of_mem _ hmem)
      · exact List.cons_subset.mpr ⟨hk, hall.sound.inside⟩
      · exact List.mem_cons_self ..

/-- A search that returns has ordered the nodes: those that it is done with are the ones
    of the graph, each before its successors. -/
theorem ordered_of_visitAll (hclosed : ∀ a ∈ nodes, next a ⊆ nodes) {roots : List κ}
    (hroots : ∀ k, k ∈ roots ↔ k ∈ nodes) (h : visitAll next depth roots = .ok m) :
    Ordered next m.visited ∧ ∀ k, k ∈ m.visited ↔ k ∈ nodes := by
  have hstart : Sound next nodes ⟨[], []⟩ :=
    ⟨.nil, fun _ hk => absurd hk (List.not_mem_nil), List.nil_subset _⟩
  have hall := searched_of_foldlM (fun k hk _ _ hb hkok =>
    searched_of_visit hclosed ((hroots k).mp hk) hb hkok) hstart h
  exact ⟨hall.sound.ordered, fun k => ⟨fun hk => hall.sound.inside hk,
    fun hk => hall.done ((hroots k).mpr hk)⟩⟩

-- ═══════════════════════════════════════════════════════════════════
-- Searches that fail
-- ═══════════════════════════════════════════════════════════════════

/-- The nodes in progress lead to the one that is visited, so coming back to one of them
    closes a cycle. -/
theorem exists_cycle_of_visit (hclosed : ∀ a ∈ nodes, next a ⊆ nodes) (hk : k ∈ nodes)
    (hpath : ∀ v ∈ m.visiting, Relation.TransGen (Edge next) v k)
    (h : visit next depth m k = .error .cycle) :
    ∃ c ∈ nodes, Relation.TransGen (Edge next) c c := by
  induction depth generalizing m k with
  | zero => exact absurd h (by simp [visit])
  | succ depth ih =>
    obtain ⟨hback, -⟩ | ⟨-, hloop⟩ := cases_of_visit_error h
    · exact ⟨k, hk, hpath k hback⟩
    · obtain ⟨j, hj, t, ht, herr⟩ := exists_of_visits_error hloop
      refine ih (hclosed k hk hj) (fun v hv => ?_) herr
      rw [ht] at hv
      obtain rfl | hv := List.mem_cons.mp hv
      · exact .single hj
      · exact (hpath v hv).tail hj

theorem exists_cycle_of_visitAll (hclosed : ∀ a ∈ nodes, next a ⊆ nodes) {roots : List κ}
    (hroots : roots ⊆ nodes) (h : visitAll next depth roots = .error .cycle) :
    ∃ c ∈ nodes, Relation.TransGen (Edge next) c c := by
  obtain ⟨k, hk, t, ht, herr⟩ := exists_of_visits_error h
  exact exists_cycle_of_visit hclosed (hroots hk) (fun v hv => by rw [ht] at hv; cases hv) herr

/-- The calls nest through different nodes of the graph. -/
theorem depth_le_of_visit (hclosed : ∀ a ∈ nodes, next a ⊆ nodes) (hk : k ∈ nodes)
    (hnodup : m.visiting.Nodup) (hinside : m.visiting ⊆ nodes)
    (h : visit next depth m k = .error .exhausted) :
    depth + m.visiting.length ≤ nodes.length := by
  induction depth generalizing m k with
  | zero =>
    rw [Nat.zero_add]
    exact (List.subperm_of_subset hnodup hinside).length_le
  | succ depth ih =>
    obtain ⟨-, herr⟩ | ⟨hnot, hloop⟩ := cases_of_visit_error h
    · exact absurd herr (by decide)
    · obtain ⟨j, hj, t, ht, herr⟩ := exists_of_visits_error hloop
      have hle := ih (hclosed k hk hj) (ht ▸ List.nodup_cons.mpr ⟨hnot, hnodup⟩)
        (ht ▸ List.cons_subset.mpr ⟨hk, hinside⟩) herr
      rw [ht, List.length_cons] at hle
      omega

/-- Calls that may nest more deeply than there are nodes do not run out. -/
theorem visitAll_ne_exhausted (hclosed : ∀ a ∈ nodes, next a ⊆ nodes) {roots : List κ}
    (hroots : roots ⊆ nodes) (hdepth : nodes.length < depth) :
    visitAll next depth roots ≠ .error .exhausted := by
  intro h
  obtain ⟨k, hk, t, ht, herr⟩ := exists_of_visits_error h
  have hle := depth_le_of_visit hclosed (hroots hk) (ht ▸ List.nodup_nil)
    (ht ▸ List.nil_subset _) herr
  omega

end Search

-- ═══════════════════════════════════════════════════════════════════
-- Orderings and cycles
-- ═══════════════════════════════════════════════════════════════════

namespace Ordered

variable {next} {l : List κ}

theorem nodup (h : Ordered next l) : l.Nodup := by
  induction h with
  | nil => exact List.nodup_nil
  | cons hk _ _ ih => exact List.nodup_cons.mpr ⟨hk, ih⟩

/-- The successors of a node stand after it. -/
theorem mem_of_append {before after : List κ} {k j : κ} (h : Ordered next (after ++ k :: before))
    (hj : j ∈ next k) : j ∈ before := by
  induction after with
  | nil =>
    cases h with
    | cons _ hnext _ => exact hnext j hj
  | cons a after ih =>
    cases h with
    | cons _ _ hl => exact ih hl

theorem mem_of_edge (h : Ordered next l) {a b : κ} (ha : a ∈ l) (hab : Edge next a b) : b ∈ l := by
  obtain ⟨after, before, rfl⟩ := List.append_of_mem ha
  exact List.mem_append_right _ (List.mem_cons_of_mem _ (h.mem_of_append hab))

theorem mem_of_transGen (h : Ordered next l) {a b : κ} (ha : a ∈ l)
    (hab : Relation.TransGen (Edge next) a b) : b ∈ l := by
  induction hab with
  | single hab => exact h.mem_of_edge ha hab
  | tail _ hbc ih => exact h.mem_of_edge ih hbc

/-- No node of an ordering leads back to itself. -/
theorem acyclic (h : Ordered next l) : ∀ k ∈ l, ¬Relation.TransGen (Edge next) k k := by
  induction h with
  | nil => exact fun _ hk => absurd hk List.not_mem_nil
  | @cons k l hk hnext hl ih =>
    intro j hj hcycle
    obtain rfl | hj := List.mem_cons.mp hj
    · obtain ⟨i, hi, hback⟩ := Relation.TransGen.head'_iff.mp hcycle
      obtain rfl | hback := Relation.reflTransGen_iff_eq_or_transGen.mp hback
      · exact hk (hnext _ hi)
      · exact hk (hl.mem_of_transGen (hnext i hi) hback)
    · exact ih j hj hcycle

end Ordered

/-- A search with room for its calls returns exactly when the graph has no cycle. -/
theorem visitAll_returns_iff [DecidableEq κ] {next} {nodes roots : List κ} {depth : ℕ}
    (hclosed : ∀ a ∈ nodes, next a ⊆ nodes) (hroots : ∀ k, k ∈ roots ↔ k ∈ nodes)
    (hdepth : nodes.length < depth) :
    (∃ m, visitAll next depth roots = .ok m) ↔
      ∀ k ∈ nodes, ¬Relation.TransGen (Edge next) k k := by
  constructor
  · rintro ⟨m, hm⟩ k hk
    obtain ⟨hordered, hmem⟩ := ordered_of_visitAll hclosed hroots hm
    exact hordered.acyclic k ((hmem k).mpr hk)
  · intro hacyclic
    have hsub : roots ⊆ nodes := fun k hk => (hroots k).mp hk
    cases h : visitAll next depth roots with
    | ok m => exact ⟨m, rfl⟩
    | error e =>
      cases e with
      | cycle =>
        obtain ⟨c, hc, hcycle⟩ := exists_cycle_of_visitAll hclosed hsub h
        exact absurd hcycle (hacyclic c hc)
      | exhausted => exact absurd h (visitAll_ne_exhausted hclosed hsub hdepth)

-- ═══════════════════════════════════════════════════════════════════
-- Paths
-- ═══════════════════════════════════════════════════════════════════

/-- A path around a cycle can be made as long as one wants. -/
theorem exists_path_of_cycle {r : κ → κ → Prop} {k : κ} (h : Relation.TransGen r k k) (n : ℕ) :
    ∃ l : List κ, l.length = n ∧ (k :: l).IsChain r := by
  induction n generalizing k with
  | zero => exact ⟨[], rfl, List.isChain_singleton k⟩
  | succ n ih =>
    obtain ⟨j, hj, hback⟩ := Relation.TransGen.head'_iff.mp h
    obtain ⟨l, hl, hchain⟩ := ih (.tail' hback hj)
    exact ⟨j :: l, by rw [List.length_cons, hl], List.isChain_cons_cons.mpr ⟨hj, hchain⟩⟩

/-- A path from a node continues every way that leads there. -/
theorem exists_path_of_reflTransGen {r : κ → κ → Prop} {a b : κ}
    (h : Relation.ReflTransGen r a b) {l : List κ} (hl : (b :: l).IsChain r) :
    ∃ l' : List κ, l.length ≤ l'.length ∧ (a :: l').IsChain r := by
  induction h using Relation.ReflTransGen.head_induction_on with
  | refl => exact ⟨l, le_rfl, hl⟩
  | @head a c hac _ ih =>
    obtain ⟨l', hle, hchain⟩ := ih
    exact ⟨c :: l', by rw [List.length_cons]; omega, List.isChain_cons_cons.mpr ⟨hac, hchain⟩⟩

-- ═══════════════════════════════════════════════════════════════════
-- Items that name each other
-- ═══════════════════════════════════════════════════════════════════

section Items

variable {α : Type*} (key : α → κ) (out : α → List κ) (items : List α)

/-- The item with the first key names the second. -/
def Leads (a b : κ) : Prop := ∃ x ∈ items, key x = a ∧ b ∈ out x

variable {key out items} in
/-- A key without an item leads nowhere. -/
theorem leads_acyclic_iff :
    (∀ k ∈ items.map key, ¬Relation.TransGen (Leads key out items) k k) ↔
      ∀ k, ¬Relation.TransGen (Leads key out items) k k := by
  constructor
  · intro h k hcycle
    obtain ⟨_, ⟨x, hx, rfl, -⟩, -⟩ := Relation.TransGen.head'_iff.mp hcycle
    exact h (key x) (List.mem_map_of_mem hx) hcycle
  · exact fun h k _ => h k

variable [DecidableEq κ]

/-- The item with a key. -/
def lookup (k : κ) : Option α := items.find? fun a => key a = k

/-- The keys that the item with a key names. -/
def successors (k : κ) : List κ := ((lookup key items k).map out).getD []

variable {key out items}

theorem lookup_eq_some (h : (items.map key).Nodup) {k : κ} {a : α} :
    lookup key items k = some a ↔ a ∈ items ∧ key a = k := by
  have hsound : ∀ {x}, lookup key items k = some x → x ∈ items ∧ key x = k := fun hx =>
    ⟨List.mem_of_find?_eq_some hx, by simpa using List.find?_some hx⟩
  constructor
  · exact hsound
  · rintro ⟨ha, rfl⟩
    cases hfind : lookup key items (key a) with
    | none => exact absurd (List.find?_eq_none.mp hfind a ha) (by simp)
    | some x =>
      obtain ⟨hx, hkey⟩ := hsound hfind
      rw [List.inj_on_of_nodup_map h hx ha hkey]

theorem successors_key (h : (items.map key).Nodup) {a : α} (ha : a ∈ items) :
    successors key out items (key a) = out a := by
  rw [successors, (lookup_eq_some h).mpr ⟨ha, rfl⟩]
  rfl

theorem edge_successors (h : (items.map key).Nodup) :
    Edge (successors key out items) = Leads key out items := by
  funext a b
  refine propext ⟨fun hab => ?_, ?_⟩
  · unfold Edge successors at hab
    cases hfind : lookup key items a with
    | none => rw [hfind] at hab; exact absurd hab List.not_mem_nil
    | some x =>
      rw [hfind] at hab
      obtain ⟨hx, hkey⟩ := (lookup_eq_some h).mp hfind
      exact ⟨x, hx, hkey, hab⟩
  · rintro ⟨x, hx, rfl, hb⟩
    rw [Edge, successors_key h hx]
    exact hb

/-- Items that name items only make a closed graph. -/
theorem successors_subset (h : (items.map key).Nodup)
    (hknown : ∀ a ∈ items, ∀ k ∈ out a, ∃ x ∈ items, key x = k) :
    ∀ k ∈ items.map key, successors key out items k ⊆ items.map key := by
  intro k hk j hj
  obtain ⟨a, ha, rfl⟩ := List.mem_map.mp hk
  rw [successors_key h ha] at hj
  obtain ⟨x, hx, rfl⟩ := hknown a ha j hj
  exact List.mem_map_of_mem hx

end Items

end DepthFirst
