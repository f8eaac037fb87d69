import Mathlib.Logic.Basic
import Mathlib.Data.List.Count
import Mathlib.Tactic.Common

/-!
# Labelled transition systems

Runs of a labelled transition system as traces of transitions, with the rules
by which invariants and counting arguments pass from one step to a whole run.

## Main definitions

- `TransitionSystem` — initial states and a labelled step relation
- `TransitionSystem.Path` — a finite run together with the transitions it took
- `TransitionSystem.Reachable` — states at the end of a run from an initial state
-/

/-- Initial states and a step relation labelled by actions. -/
structure TransitionSystem (σ α : Type*) where
  init : σ → Prop
  step : σ → α → σ → Prop

/-- One taken step: the state before, the action and the state after. -/
structure Transition (σ α : Type*) where
  source : σ
  action : α
  target : σ

/-- Whether a step establishes a property. -/
def Transition.rises {σ α : Type*} (P : σ → Bool) (e : Transition σ α) : Bool :=
  !P e.source && P e.target

namespace TransitionSystem

variable {σ α : Type*} {T : TransitionSystem σ α}

/-- A run from one state to another, recording its transitions in order. -/
inductive Path (T : TransitionSystem σ α) (s : σ) : List (Transition σ α) → σ → Prop
  | refl : Path T s [] s
  | snoc {t u : σ} {a : α} {tr : List (Transition σ α)} :
      Path T s tr t → T.step t a u → Path T s (tr ++ [⟨t, a, u⟩]) u

/-- States at the end of some run that starts in an initial state. -/
inductive Reachable (T : TransitionSystem σ α) : σ → Prop
  | init {s : σ} : T.init s → Reachable T s
  | step {s t : σ} {a : α} : Reachable T s → T.step s a t → Reachable T t

-- ════════════════════════════════════════════════════════════════════════
-- Invariants
-- ════════════════════════════════════════════════════════════════════════

/-- A property that steps keep. -/
def Preserved (T : TransitionSystem σ α) (I : σ → Prop) : Prop :=
  ∀ s a t, I s → T.step s a t → I t

/-- **Invariant rule**: what holds initially and is kept by every step holds
    in every reachable state. -/
theorem Reachable.invariant {I : σ → Prop} (hinit : ∀ s, T.init s → I s)
    (hstep : T.Preserved I) {s : σ} (h : T.Reachable s) : I s := by
  induction h with
  | init h0 => exact hinit _ h0
  | step _ hs ih => exact hstep _ _ _ ih hs

/-- The invariant rule along a run that need not start in an initial state. -/
theorem Path.invariant {I : σ → Prop} (hstep : T.Preserved I) {s t : σ}
    {tr : List (Transition σ α)} (h : T.Path s tr t) (hs : I s) : I t := by
  induction h with
  | refl => exact hs
  | snoc _ ht ih => exact hstep _ _ _ ih ht

/-- The states a run passes through keep the invariant too. -/
theorem Path.invariant_source {I : σ → Prop} (hstep : T.Preserved I) {s t : σ}
    {tr : List (Transition σ α)} (h : T.Path s tr t) (hs : I s) :
    ∀ e ∈ tr, I e.source := by
  induction h with
  | refl => simp
  | snoc hp _ ih =>
    intro e he
    rcases List.mem_append.mp he with he | he
    · exact ih e he
    · rw [List.mem_singleton.mp he]
      exact hp.invariant hstep hs

theorem Path.reachable {s t : σ} {tr : List (Transition σ α)} (h : T.Path s tr t)
    (hs : T.Reachable s) : T.Reachable t := by
  induction h with
  | refl => exact hs
  | snoc _ ht ih => exact ih.step ht

/-- A reachable state ends a run from an initial one. -/
theorem Reachable.exists_path {t : σ} (h : T.Reachable t) : ∃ s tr, T.init s ∧ T.Path s tr t := by
  induction h with
  | init h0 => exact ⟨_, [], h0, .refl⟩
  | step _ hs ih =>
    obtain ⟨s, tr, h0, hpath⟩ := ih
    exact ⟨s, _, h0, hpath.snoc hs⟩

/-- Every recorded transition is a step of the system. -/
theorem Path.step_of_mem {s t : σ} {tr : List (Transition σ α)} (h : T.Path s tr t) :
    ∀ e ∈ tr, T.step e.source e.action e.target := by
  induction h with
  | refl => simp
  | snoc _ ht ih =>
    intro e he
    rcases List.mem_append.mp he with he | he
    · exact ih e he
    · rw [List.mem_singleton.mp he]
      exact ht

/-- A preorder that every step respects relates the two ends of a run. -/
theorem Path.rel {R : σ → σ → Prop} (hrefl : ∀ s, R s s)
    (htrans : ∀ s t u, R s t → R t u → R s u)
    (hstep : ∀ s a t, T.step s a t → R s t) {s t : σ}
    {tr : List (Transition σ α)} (h : T.Path s tr t) : R s t := by
  induction h with
  | refl => exact hrefl _
  | snoc _ ht ih => exact htrans _ _ _ ih (hstep _ _ _ ht)

/-- Runs compose. -/
theorem Path.append {s t u : σ} {tr tr' : List (Transition σ α)} (h : T.Path s tr t)
    (h' : T.Path t tr' u) : T.Path s (tr ++ tr') u := by
  induction h' with
  | refl => simpa using h
  | snoc _ ht ih => simpa only [← List.append_assoc] using ih.snoc ht

theorem Path.cons {s t u : σ} {a : α} {tr : List (Transition σ α)} (h : T.step s a t)
    (h' : T.Path t tr u) : T.Path s (⟨s, a, t⟩ :: tr) u :=
  (Path.refl.snoc h).append h'

/-- A recorded transition splits the run around it. -/
theorem Path.of_append_cons {s t : σ} {tr₁ tr₂ : List (Transition σ α)} {e : Transition σ α}
    (h : T.Path s (tr₁ ++ e :: tr₂) t) :
    T.Path s tr₁ e.source ∧ T.step e.source e.action e.target ∧ T.Path e.target tr₂ t := by
  generalize htr : tr₁ ++ e :: tr₂ = tr at h
  induction h generalizing tr₂ with
  | refl => simp at htr
  | @snoc t u a tr hp ht ih =>
    rcases List.eq_nil_or_concat tr₂ with rfl | ⟨tr₂, e', rfl⟩
    · obtain ⟨rfl, rfl⟩ := List.append_inj' htr rfl |>.imp_right List.singleton_inj.mp
      exact ⟨hp, ht, .refl⟩
    · rw [List.concat_eq_append, ← List.cons_append, ← List.append_assoc] at htr
      obtain ⟨hinit, he⟩ := List.append_inj' htr rfl
      obtain rfl := List.singleton_inj.mp he
      obtain ⟨h₁, h₂, h₃⟩ := ih hinit
      rw [List.concat_eq_append]
      exact ⟨h₁, h₂, h₃.snoc ht⟩

/-- A preserved property of the state after one step holds before every later one. -/
theorem Path.pairwise {I Q : σ → Prop} (hI : T.Preserved I)
    (hQ : ∀ s a t, I s → Q s → T.step s a t → Q t) {s t : σ} {tr : List (Transition σ α)}
    (h : T.Path s tr t) (hs : I s) :
    tr.Pairwise (fun e e' => Q e.target → Q e'.source) ∧ ∀ e ∈ tr, Q e.target → Q t := by
  induction h with
  | refl => simp
  | @snoc t u a tr hp ht ih =>
    obtain ⟨hpair, hend⟩ := ih
    refine ⟨List.pairwise_append.mpr ⟨hpair, List.pairwise_singleton .., ?_⟩, ?_⟩
    · intro e he e' he'
      rw [List.mem_singleton.mp he']
      exact hend e he
    · intro e he hq
      rcases List.mem_append.mp he with he | he
      · exact hQ _ _ _ (hp.invariant hI hs) (hend e he hq) ht
      · rw [List.mem_singleton.mp he] at hq
        exact hq

/-- A property that fails at the start and holds at the end has a last step that
    establishes it. -/
theorem Path.exists_last_rise {P : σ → Prop} {s t : σ} {tr : List (Transition σ α)}
    (h : T.Path s tr t) (hs : ¬P s) (ht : P t) :
    ∃ before e after, tr = before ++ e :: after ∧ ¬P e.source ∧ P e.target ∧
      ∀ e' ∈ after, P e'.source := by
  induction h with
  | refl => exact absurd ht hs
  | @snoc t u a tr _ _ ih =>
    by_cases hmiddle : P t
    · obtain ⟨before, e, after, rfl, hsource, htarget, hafter⟩ := ih hmiddle
      refine ⟨before, e, after ++ [⟨t, a, u⟩], by simp, hsource, htarget, fun e' he' => ?_⟩
      rcases List.mem_append.mp he' with he' | he'
      · exact hafter e' he'
      · rw [List.mem_singleton.mp he']
        exact hmiddle
    · exact ⟨tr, ⟨t, a, u⟩, [], rfl, hmiddle, ht, by simp⟩

-- ════════════════════════════════════════════════════════════════════════
-- Counting
-- ════════════════════════════════════════════════════════════════════════

/-- **Balance rule**: when every counted step is paid for by a drop of one
    measure or a rise of another, so is the number of counted steps in a run. The
    invariant may be used at each step. -/
theorem Path.countP_balance {I : σ → Prop} {μ κ : σ → ℕ} {p : Transition σ α → Bool}
    (hI : T.Preserved I)
    (hstep : ∀ s a t, I s → T.step s a t →
      (if p ⟨s, a, t⟩ then 1 else 0) + μ t + κ s ≤ μ s + κ t)
    {s t : σ} {tr : List (Transition σ α)} (h : T.Path s tr t) (hs : I s) :
    tr.countP p + μ t + κ s ≤ μ s + κ t := by
  induction h with
  | refl => simp
  | @snoc t u a tr hp ht ih =>
    have hlast := hstep _ _ _ (hp.invariant hI hs) ht
    rw [List.countP_append, List.countP_singleton]
    omega

/-- **Ranking rule**: when every counted step lowers a measure and no other
    step raises it, the measure bounds the number of counted steps. -/
theorem Path.countP_le {I : σ → Prop} {μ : σ → ℕ} {p : Transition σ α → Bool}
    (hI : T.Preserved I)
    (hdec : ∀ s a t, I s → T.step s a t → p ⟨s, a, t⟩ = true → μ t + 1 ≤ μ s)
    (hmono : ∀ s a t, I s → T.step s a t → μ t ≤ μ s)
    {s t : σ} {tr : List (Transition σ α)} (h : T.Path s tr t) (hs : I s) :
    tr.countP p + μ t ≤ μ s := by
  refine h.countP_balance (κ := fun _ => 0) hI (fun s a t hIs hst => ?_) hs
  split
  · rename_i hp
    have := hdec s a t hIs hst hp
    omega
  · have := hmono s a t hIs hst
    omega

/-- A property that steps keep is established at most once in a run. -/
theorem Path.countP_rises_le_one {P : σ → Bool}
    (hstep : ∀ s a t, T.step s a t → P s = true → P t = true) {s t : σ}
    {tr : List (Transition σ α)} (h : T.Path s tr t) : tr.countP (Transition.rises P) ≤ 1 := by
  let μ (s : σ) : ℕ := if P s then 0 else 1
  have hle : tr.countP (Transition.rises P) + μ t ≤ μ s := by
    refine h.countP_le (I := fun _ => True) (fun _ _ _ _ _ => trivial) ?_ ?_ trivial
    · intro s a t _ _ hrises
      simp only [Transition.rises, Bool.and_eq_true, Bool.not_eq_true'] at hrises
      simp [μ, hrises]
    · intro s a t _ ht
      by_cases hs : P s = true
      · simp [μ, hs, hstep s a t ht hs]
      · show (if P t then 0 else 1) ≤ if P s then 0 else 1
        rw [if_neg hs]
        split <;> omega
  have hone : μ s ≤ 1 := by
    show (if P s then 0 else 1) ≤ 1
    split <;> omega
  omega

-- ════════════════════════════════════════════════════════════════════════
-- Restricted runs
-- ════════════════════════════════════════════════════════════════════════

/-- The runs all of whose steps meet a condition on the state and the action. -/
def restrict (T : TransitionSystem σ α) (C : σ → α → Prop) : TransitionSystem σ α where
  init := T.init
  step s a t := T.step s a t ∧ C s a

theorem Reachable.of_restrict {C : σ → α → Prop} {s : σ} (h : (T.restrict C).Reachable s) :
    T.Reachable s := by
  induction h with
  | init h0 => exact .init h0
  | step _ hs ih => exact ih.step hs.1

/-- A run meets the condition when each of its transitions does. -/
theorem Path.restrict {C : σ → α → Prop} {s t : σ} {tr : List (Transition σ α)}
    (h : T.Path s tr t) (hC : ∀ e ∈ tr, C e.source e.action) : (T.restrict C).Path s tr t := by
  induction h with
  | refl => exact .refl
  | @snoc t u a tr _ ht ih =>
    have hprefix : ∀ e ∈ tr, C e.source e.action := fun e he =>
      hC e (List.mem_append_left _ he)
    exact (ih hprefix).snoc ⟨ht, hC ⟨t, a, u⟩ (by simp)⟩

theorem Path.of_restrict {C : σ → α → Prop} {s t : σ} {tr : List (Transition σ α)}
    (h : (T.restrict C).Path s tr t) : T.Path s tr t := by
  induction h with
  | refl => exact .refl
  | snoc _ ht ih => exact ih.snoc ht.1

-- ════════════════════════════════════════════════════════════════════════
-- Independent components
-- ════════════════════════════════════════════════════════════════════════

section Indexed

variable {ι : Type*}

/-- One copy of a system for each index; a step moves a single component. -/
def indexed (T : TransitionSystem σ α) (ι : Type*) : TransitionSystem (ι → σ) (ι × α) where
  init s := ∀ i, T.init (s i)
  step s a t := T.step (s a.1) a.2 (t a.1) ∧ ∀ j, j ≠ a.1 → t j = s j

/-- Seen from one component, a step of the family is a step of its own or none. -/
theorem indexed_step {s t : ι → σ} {a : ι × α} (h : (T.indexed ι).step s a t) (i : ι) :
    (a.1 = i ∧ T.step (s i) a.2 (t i)) ∨ t i = s i := by
  by_cases hi : a.1 = i
  · subst hi
    exact .inl ⟨rfl, h.1⟩
  · exact .inr (h.2 i (Ne.symm hi))

/-- Every component of a reachable family is reachable on its own. -/
theorem Reachable.component {s : ι → σ} (h : (T.indexed ι).Reachable s) (i : ι) :
    T.Reachable (s i) := by
  induction h with
  | init h0 => exact .init (h0 i)
  | step _ hs ih =>
    rcases indexed_step hs i with ⟨_, hi⟩ | hi
    · exact ih.step hi
    · rw [hi]
      exact ih

/-- A component's invariant is an invariant of the family. -/
theorem Preserved.component {I : σ → Prop} (h : T.Preserved I) (i : ι) :
    (T.indexed ι).Preserved fun s => I (s i) := by
  intro s a t hs hstep
  rcases indexed_step hstep i with ⟨_, hi⟩ | hi
  · exact h _ _ _ hs hi
  · simpa only [hi] using hs

/-- A transition of one component, the others being as in `s`. -/
def liftTransition [DecidableEq ι] (s : ι → σ) (i : ι) (e : Transition σ α) :
    Transition (ι → σ) (ι × α) :=
  ⟨Function.update s i e.source, (i, e.action), Function.update s i e.target⟩

/-- A run of one component is a run of the family in which the others rest. -/
theorem Path.lift [DecidableEq ι] {s : ι → σ} {i : ι} {t : σ} {tr : List (Transition σ α)}
    (h : T.Path (s i) tr t) :
    (T.indexed ι).Path s (tr.map (liftTransition s i)) (Function.update s i t) := by
  induction h with
  | refl =>
    rw [Function.update_eq_self]
    exact .refl
  | @snoc t u a tr _ ht ih =>
    rw [List.map_append]
    refine ih.snoc ⟨?_, fun j hj => ?_⟩
    · simpa only [Function.update_self] using ht
    · rw [Function.update_of_ne hj, Function.update_of_ne hj]

/-- What a transition of the family is for one component, if it moved it. -/
def componentTransition [DecidableEq ι] (i : ι) (e : Transition (ι → σ) (ι × α)) :
    Option (Transition σ α) :=
  if e.action.1 = i then some ⟨e.source i, e.action.2, e.target i⟩ else none

/-- The transitions of one component, in order. -/
def componentTrace [DecidableEq ι] (i : ι) (tr : List (Transition (ι → σ) (ι × α))) :
    List (Transition σ α) :=
  tr.filterMap (componentTransition i)

/-- A run of the family is a run of each component. -/
theorem Path.component [DecidableEq ι] {s t : ι → σ} {tr : List (Transition (ι → σ) (ι × α))}
    (h : (T.indexed ι).Path s tr t) (i : ι) : T.Path (s i) (componentTrace i tr) (t i) := by
  induction h with
  | refl => exact .refl
  | @snoc t u a tr _ ht ih =>
    rw [componentTrace, List.filterMap_append, List.filterMap_cons, List.filterMap_nil]
    rcases indexed_step ht i with ⟨ha, hi⟩ | hi
    · simp only [componentTransition, if_pos ha]
      exact ih.snoc hi
    · by_cases ha : a.1 = i
      · simp only [componentTransition, if_pos ha]
        exact ih.snoc (ha ▸ ht.1)
      · simp only [componentTransition, if_neg ha, List.append_nil]
        rw [hi]
        exact ih

theorem componentTrace_lift [DecidableEq ι] (s : ι → σ) (i : ι) (tr : List (Transition σ α)) :
    componentTrace i (tr.map (liftTransition s i)) = tr := by
  induction tr with
  | nil => rfl
  | cons e tr ih =>
    have he : componentTransition i (liftTransition s i e) = some e := by
      simp [componentTransition, liftTransition]
    rw [componentTrace, List.map_cons, List.filterMap_cons_some he]
    exact congrArg (e :: ·) ih

/-- The end of a run occurs as a component of a reachable family. -/
theorem Path.exists_indexed [DecidableEq ι] {s t : σ} {tr : List (Transition σ α)}
    (h : T.Path s tr t) (hs : T.init s) (i : ι) :
    ∃ u, (T.indexed ι).Reachable u ∧ u i = t :=
  ⟨_, Path.reachable (h.lift (s := fun _ => s) (i := i)) (.init fun _ => hs),
    Function.update_self ..⟩

end Indexed

-- ════════════════════════════════════════════════════════════════════════
-- Executable systems
-- ════════════════════════════════════════════════════════════════════════

section Executable

variable {ε : Type*} (exec : σ → α → Except ε σ)

/-- Runs actions one after the other, each of which must succeed and may depend
    on the state before it, and records the steps. -/
def execAll (s : σ) : List (σ → α) → Except ε (List (Transition σ α) × σ)
  | [] => .ok ([], s)
  | a :: as =>
    match exec s (a s) with
    | .error e => .error e
    | .ok t =>
      match execAll t as with
      | .error e => .error e
      | .ok (tr, u) => .ok (⟨s, a s, t⟩ :: tr, u)

/-- Whether a run succeeds with a trace and a final state that meet `p`. -/
def runsTo (s : σ) (as : List (σ → α)) (p : List (Transition σ α) → σ → Bool) : Bool :=
  match execAll exec s as with
  | .ok (tr, t) => p tr t
  | .error _ => false

variable {exec}

/-- Actions that meet a condition in every state meet it where they are taken. -/
theorem restricted_path_of_execAll (hexec : ∀ s a t, exec s a = .ok t → T.step s a t)
    {C : σ → α → Prop} {s t : σ} {as : List (σ → α)} {tr : List (Transition σ α)}
    (hC : ∀ a ∈ as, ∀ s, C s (a s)) (h : execAll exec s as = .ok (tr, t)) :
    (T.restrict C).Path s tr t := by
  induction as generalizing s tr with
  | nil =>
    obtain ⟨rfl, rfl⟩ := Prod.mk.inj (Except.ok.inj h)
    exact .refl
  | cons a as ih =>
    simp only [execAll] at h
    split at h
    · exact absurd h (by simp)
    · rename_i u hu
      split at h
      · exact absurd h (by simp)
      · rename_i tr' t' ht
        obtain ⟨rfl, rfl⟩ := Prod.mk.inj (Except.ok.inj h)
        refine .cons ⟨hexec _ _ _ hu, hC a List.mem_cons_self s⟩ (ih (fun b hb => ?_) ht)
        exact hC b (List.mem_cons_of_mem a hb)

theorem exists_restricted_path_of_runsTo (hexec : ∀ s a t, exec s a = .ok t → T.step s a t)
    {C : σ → α → Prop} {s : σ} {as : List (σ → α)} {p : List (Transition σ α) → σ → Bool}
    (hC : ∀ a ∈ as, ∀ s, C s (a s)) (h : runsTo exec s as p = true) :
    ∃ tr t, (T.restrict C).Path s tr t ∧ p tr t = true := by
  unfold runsTo at h
  split at h
  · rename_i tr t ht
    exact ⟨tr, t, restricted_path_of_execAll hexec hC ht, h⟩
  · exact absurd h (by simp)

theorem exists_path_of_runsTo (hexec : ∀ s a t, exec s a = .ok t → T.step s a t) {s : σ}
    {as : List (σ → α)} {p : List (Transition σ α) → σ → Bool}
    (h : runsTo exec s as p = true) : ∃ tr t, T.Path s tr t ∧ p tr t = true := by
  obtain ⟨tr, t, hpath, hp⟩ := exists_restricted_path_of_runsTo (C := fun _ _ => True) hexec
    (fun _ _ _ => trivial) h
  exact ⟨tr, t, hpath.of_restrict, hp⟩

end Executable

end TransitionSystem
