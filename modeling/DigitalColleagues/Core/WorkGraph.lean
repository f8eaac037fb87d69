import DigitalColleagues.Core.Principals
import DigitalColleagues.Core.Work
import DigitalColleagues.Lib.DepthFirst
import Mathlib.Data.List.Perm.Basic
import Mathlib.Data.List.Sort
import Mathlib.Data.String.Basic

/-!
# Dependencies of finite work

The check of a set of work items that depend on each other.

## Main definitions

- `DependentWork` — a work item with its namespace and its dependencies
- `validateWorkDependencyGraph` — the check
- `WellFormedGraph`, `DependencyOrder` — what it checks

## Main results

- `validateWorkDependencyGraph_exact` — the check accepts the graphs without a cycle
-/

namespace DigitalColleagues

open DepthFirst

/-- A work item, as far as its place among others goes. -/
structure DependentWork extends FiniteWork where
  tenantId : StableId
  ns : Namespace
  dependencyIds : List StableId
  ns_colleague : ns.isColleague = true
  dependencyIds_nodup : dependencyIds.Nodup
  workId_not_mem : workId ∉ dependencyIds

/-- `by_id`, with one more work item. -/
def indexWork (first : DependentWork) (byId : List DependentWork) (work : DependentWork) :
    Outcome (List DependentWork) := do
  require (first.tenantId = work.tenantId ∧ first.ns = work.ns)
    (.namespaceMismatch "namespace mismatch")
  require (∀ w ∈ byId, w.workId ≠ work.workId)
    (.coreInvariant "work dependency graph contains a duplicate work ID")
  pure (byId ++ [work])

/-- The checks before the traversal, and the `by_id` that they fill. -/
def indexWorks (works : List DependentWork) : Outcome (List DependentWork) := do
  let first ← orFail works.head? (.coreInvariant "work dependency graph must not be empty")
  let byId ← works.foldlM (indexWork first) []
  require (∀ work ∈ works, ∀ id ∈ work.dependencyIds, ∃ w ∈ byId, w.workId = id)
    (.coreInvariant "work dependency graph references unknown work")
  pure byId

/-- `by_id[work_id].dependency_ids`. -/
def dependenciesOf (byId : List DependentWork) : StableId → List StableId :=
  successors (·.workId) (·.dependencyIds) byId

/-- `validate_work_dependency_graph`, with calls of `visit` that nest at most `depth`
    deep; without a result when they nest more deeply. -/
def validateWorkDependencyGraph (depth : ℕ) (works : List DependentWork) :
    Option (Outcome Unit) :=
  match indexWorks works with
  | .error e => some (.error e)
  | .ok byId =>
    match visitAll (dependenciesOf byId) depth
      ((byId.map (·.workId)).insertionSort fun a b => a.val ≤ b.val) with
    | .ok _ => some (.ok ())
    | .error .cycle => some (.error (.coreInvariant "work dependency graph contains a cycle"))
    | .error .exhausted => none

-- ═══════════════════════════════════════════════════════════════════
-- What is checked
-- ═══════════════════════════════════════════════════════════════════

/-- One namespace, different identifiers, and dependencies that name works. -/
structure WellFormedGraph (works : List DependentWork) : Prop where
  same_namespace : ∀ w ∈ works, ∀ w' ∈ works, w.tenantId = w'.tenantId ∧ w.ns = w'.ns
  ids_nodup : (works.map (·.workId)).Nodup
  known : ∀ w ∈ works, ∀ id ∈ w.dependencyIds, ∃ d ∈ works, d.workId = id

/-- The dependency relation on identifiers. -/
def DependsOn (works : List DependentWork) : StableId → StableId → Prop :=
  Leads (·.workId) (·.dependencyIds) works

/-- Each work comes after all its dependencies. -/
def DependencyOrder (order : List DependentWork) : Prop :=
  ∀ before w after, order = before ++ w :: after →
    ∀ id ∈ w.dependencyIds, ∃ d ∈ before, d.workId = id

theorem indexWork_eq_ok {first work : DependentWork} {byId byId' : List DependentWork} :
    indexWork first byId work = .ok byId' ↔
      (first.tenantId = work.tenantId ∧ first.ns = work.ns) ∧
        (∀ w ∈ byId, w.workId ≠ work.workId) ∧ byId ++ [work] = byId' := by
  simp only [indexWork, bind_eq_ok, require_eq_ok, pure_eq_ok, exists_const]

/-- The loop that fills `by_id` accepts the works of one namespace with different
    identifiers. -/
theorem foldlM_indexWork {first : DependentWork} {works byId byId' : List DependentWork}
    (hnodup : (byId.map (·.workId)).Nodup) :
    works.foldlM (indexWork first) byId = .ok byId' ↔
      (∀ w ∈ works, first.tenantId = w.tenantId ∧ first.ns = w.ns) ∧
        ((byId ++ works).map (·.workId)).Nodup ∧ byId ++ works = byId' := by
  induction works generalizing byId with
  | nil => simp [pure_eq_ok, hnodup]
  | cons w works ih =>
    have hfresh : (∀ v ∈ byId, v.workId ≠ w.workId) ↔
        ((byId ++ [w]).map (·.workId)).Nodup := by
      rw [List.map_append, List.nodup_append]
      simp [hnodup]
    have happ : byId ++ w :: works = (byId ++ [w]) ++ works := by simp
    simp only [List.foldlM_cons, bind_eq_ok, indexWork_eq_ok, happ]
    constructor
    · rintro ⟨_, ⟨hns, hids, rfl⟩, hrest⟩
      obtain ⟨hall, hdiff, hres⟩ := (ih (hfresh.mp hids)).mp hrest
      exact ⟨List.forall_mem_cons.mpr ⟨hns, hall⟩, hdiff, hres⟩
    · rintro ⟨hall, hdiff, hres⟩
      obtain ⟨hns, hall⟩ := List.forall_mem_cons.mp hall
      have hinit : ((byId ++ [w]).map (·.workId)).Nodup := by
        rw [List.map_append] at hdiff
        exact (List.nodup_append.mp hdiff).1
      exact ⟨_, ⟨hns, hfresh.mpr hinit, rfl⟩, (ih hinit).mpr ⟨hall, hdiff, hres⟩⟩

theorem indexWorks_eq_ok {works byId : List DependentWork} (hne : works ≠ []) :
    indexWorks works = .ok byId ↔ WellFormedGraph works ∧ works = byId := by
  obtain ⟨first, rest, rfl⟩ := List.exists_cons_of_ne_nil hne
  have hnil : (([] : List DependentWork).map (·.workId)).Nodup := List.nodup_nil
  simp only [indexWorks, List.head?_cons, bind_eq_ok, orFail_eq_ok, require_eq_ok, pure_eq_ok,
    exists_const, Option.some.injEq, exists_eq_left', foldlM_indexWork hnil, List.nil_append]
  constructor
  · rintro ⟨_, ⟨hns, hids, rfl⟩, hknown, rfl⟩
    exact ⟨⟨fun w hw w' hw' => ⟨(hns w hw).1.symm.trans (hns w' hw').1,
      (hns w hw).2.symm.trans (hns w' hw').2⟩, hids, hknown⟩, rfl⟩
  · rintro ⟨h, rfl⟩
    exact ⟨_, ⟨h.same_namespace first (List.mem_cons_self ..), h.ids_nodup, rfl⟩, h.known, rfl⟩

-- ═══════════════════════════════════════════════════════════════════
-- The graph of the identifiers
-- ═══════════════════════════════════════════════════════════════════

namespace WellFormedGraph

variable {works : List DependentWork}

theorem dependenciesOf_workId (h : WellFormedGraph works) {w : DependentWork} (hw : w ∈ works) :
    dependenciesOf works w.workId = w.dependencyIds :=
  successors_key h.ids_nodup hw

theorem edge_eq (h : WellFormedGraph works) :
    Edge (dependenciesOf works) = DependsOn works :=
  edge_successors h.ids_nodup

theorem closed (h : WellFormedGraph works) :
    ∀ a ∈ works.map (·.workId), dependenciesOf works a ⊆ works.map (·.workId) :=
  successors_subset h.ids_nodup h.known

/-- An identifier outside the graph depends on nothing. -/
theorem acyclic_iff :
    (∀ id ∈ works.map (·.workId), ¬Relation.TransGen (DependsOn works) id id) ↔
      ∀ id, ¬Relation.TransGen (DependsOn works) id id :=
  leads_acyclic_iff

/-- The identifiers that a search is done with, latest first, give an ordering of the
    works. -/
theorem exists_order_of_ordered (h : WellFormedGraph works) {ids : List StableId}
    (hids : Ordered (dependenciesOf works) ids) (hmem : ∀ k, k ∈ ids ↔ k ∈ works.map (·.workId)) :
    ∃ order : List DependentWork, order.Perm works ∧ DependencyOrder order := by
  have hperm : ids.reverse.Perm (works.map (·.workId)) :=
    (List.perm_ext_iff_of_nodup (List.nodup_reverse.mpr hids.nodup) h.ids_nodup).mpr
      fun k => List.mem_reverse.trans (hmem k)
  obtain ⟨order, horder, hworks⟩ :
      Relation.Comp (· = List.map (·.workId) ·) List.Perm ids.reverse works := by
    rw [List.eq_map_comp_perm]
    exact hperm
  refine ⟨order, hworks, ?_⟩
  rintro before w after rfl id hid
  have hsplit : ids = (after.map (·.workId)).reverse ++
      w.workId :: (before.map (·.workId)).reverse := by
    rw [← List.reverse_reverse ids, horder]
    simp
  rw [hsplit] at hids
  have hw : w ∈ works := hworks.subset (by simp)
  have hbefore := hids.mem_of_append ((h.dependenciesOf_workId hw).symm ▸ hid)
  simpa using hbefore

/-- An ordering of works lists their identifiers latest first. -/
theorem ordered_of_dependencyOrder (h : WellFormedGraph works) {order : List DependentWork}
    (hsub : order ⊆ works) (hnodup : (order.map (·.workId)).Nodup) (horder : DependencyOrder order) :
    Ordered (dependenciesOf works) (order.map (·.workId)).reverse := by
  induction order using List.reverseRecOn with
  | nil => exact .nil
  | append_singleton init w ih =>
    rw [List.map_append, List.map_singleton, List.nodup_append] at hnodup
    rw [List.map_append, List.map_singleton, List.reverse_append, List.reverse_singleton,
      List.singleton_append]
    refine .cons ?_ ?_ (ih ?_ hnodup.1 ?_)
    · intro hmem
      exact hnodup.2.2 _ (List.mem_reverse.mp hmem) _ (List.mem_singleton_self _) rfl
    · intro id hid
      rw [h.dependenciesOf_workId (hsub (by simp))] at hid
      obtain ⟨d, hd, rfl⟩ := horder init w [] (by simp) id hid
      exact List.mem_reverse.mpr (List.mem_map_of_mem hd)
    · exact fun v hv => hsub (List.mem_append_left _ hv)
    · rintro before v after rfl
      exact horder before v (after ++ [w]) (by simp)

/-- Works without a cycle are the works that can be ordered. -/
theorem exists_order_iff (h : WellFormedGraph works) :
    (∃ order : List DependentWork, order.Perm works ∧ DependencyOrder order) ↔
      ∀ id, ¬Relation.TransGen (DependsOn works) id id := by
  rw [← acyclic_iff, ← h.edge_eq]
  constructor
  · rintro ⟨order, hperm, horder⟩ id hid
    have hids := h.ordered_of_dependencyOrder hperm.subset
      ((hperm.map _).nodup_iff.mpr h.ids_nodup) horder
    exact hids.acyclic id (List.mem_reverse.mpr ((hperm.map _).mem_iff.mpr hid))
  · intro hacyclic
    obtain ⟨m, hm⟩ := (visitAll_returns_iff h.closed (fun _ => Iff.rfl)
      (Nat.lt_succ_self _)).mpr hacyclic
    obtain ⟨hordered, hmem⟩ := ordered_of_visitAll h.closed (fun _ => Iff.rfl) hm
    exact h.exists_order_of_ordered hordered hmem

end WellFormedGraph

/-- The check returns on every non-empty tuple of works, without an error exactly when
    they are well formed and have no cycle, which is to say that they can be ordered. -/
theorem validateWorkDependencyGraph_exact {works : List DependentWork} (hne : works ≠ [])
    {depth : ℕ} (hdepth : works.length < depth) :
    ∃ result, validateWorkDependencyGraph depth works = some result ∧
      (result = .ok () ↔
        WellFormedGraph works ∧ ∀ id, ¬Relation.TransGen (DependsOn works) id id) ∧
      (result = .ok () ↔
        WellFormedGraph works ∧
          ∃ order : List DependentWork, order.Perm works ∧ DependencyOrder order) := by
  have hboth : ∀ result : Outcome Unit, (result = .ok () ↔
      WellFormedGraph works ∧ ∀ id, ¬Relation.TransGen (DependsOn works) id id) →
      (result = .ok () ↔ WellFormedGraph works ∧
        ∃ order : List DependentWork, order.Perm works ∧ DependencyOrder order) := by
    intro result hresult
    rw [hresult]
    exact and_congr_right fun h => h.exists_order_iff.symm
  unfold validateWorkDependencyGraph
  cases hindex : indexWorks works with
  | error e =>
    have hnot : ¬WellFormedGraph works := by
      intro h
      rw [(indexWorks_eq_ok hne).mpr ⟨h, rfl⟩] at hindex
      exact absurd hindex (by simp)
    exact ⟨_, rfl, by simp [hnot], by simp [hnot]⟩
  | ok byId =>
    obtain ⟨h, rfl⟩ := (indexWorks_eq_ok hne).mp hindex
    have hroots : ∀ k, k ∈ ((works.map (·.workId)).insertionSort fun a b => a.val ≤ b.val) ↔
        k ∈ works.map (·.workId) := fun _ => List.mem_insertionSort _
    have hlength : (works.map (·.workId)).length < depth := by rwa [List.length_map]
    have hreturns := visitAll_returns_iff h.closed hroots hlength
    rw [h.edge_eq, WellFormedGraph.acyclic_iff] at hreturns
    dsimp only
    cases hvisit : visitAll (dependenciesOf works) depth
        ((works.map (·.workId)).insertionSort fun a b => a.val ≤ b.val) with
    | ok m =>
      have hok : (.ok () : Outcome Unit) = .ok () ↔
          WellFormedGraph works ∧ ∀ id, ¬Relation.TransGen (DependsOn works) id id :=
        iff_of_true rfl ⟨h, hreturns.mp ⟨m, hvisit⟩⟩
      exact ⟨_, rfl, hok, hboth _ hok⟩
    | error e =>
      cases e with
      | exhausted =>
        exact absurd hvisit (visitAll_ne_exhausted h.closed (fun k hk => (hroots k).mp hk) hlength)
      | cycle =>
        have hnot : ¬∀ id, ¬Relation.TransGen (DependsOn works) id id := by
          rw [← hreturns, hvisit]
          simp
        have herr : (.error (.coreInvariant "work dependency graph contains a cycle") :
            Outcome Unit) = .ok () ↔
            WellFormedGraph works ∧ ∀ id, ¬Relation.TransGen (DependsOn works) id id :=
          iff_of_false (by simp) fun h => hnot h.2
        exact ⟨_, rfl, herr, hboth _ herr⟩

/-- A work item that depends on the given ones. -/
def sampleDependent (workId : StableId) (dependencyIds : List StableId)
    (hnodup : dependencyIds.Nodup) (hself : workId ∉ dependencyIds) : DependentWork where
  workId := workId
  title := "sample"
  state := .planned
  tenantId := stableId "tenant"
  ns := .colleague (stableId "colleague")
  dependencyIds := dependencyIds
  ns_colleague := Eq.refl true
  dependencyIds_nodup := hnodup
  workId_not_mem := hself

/-- A work item and one that depends on it. -/
def sampleGraph : List DependentWork :=
  [sampleDependent (stableId "child") [stableId "root"] (by simp) (by decide),
    sampleDependent (stableId "root") [] (by simp) (by simp)]

theorem validateWorkDependencyGraph_exact_sample :
    ∃ result, validateWorkDependencyGraph 3 sampleGraph = some result ∧
      (result = .ok () ↔ WellFormedGraph sampleGraph ∧
        ∀ id, ¬Relation.TransGen (DependsOn sampleGraph) id id) ∧
      (result = .ok () ↔ WellFormedGraph sampleGraph ∧
        ∃ order : List DependentWork, order.Perm sampleGraph ∧ DependencyOrder order) :=
  validateWorkDependencyGraph_exact (List.cons_ne_nil _ _) (Nat.lt_succ_self 2)

example : validateWorkDependencyGraph 3 sampleGraph = some (.ok ()) := by decide +kernel

end DigitalColleagues
