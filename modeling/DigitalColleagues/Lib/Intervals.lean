import Mathlib

/-!
# Lists of half-open intervals

In a list of non-empty half-open intervals that is sorted by the lower ends, it
is enough to compare neighbours to know that no two intervals meet.

## Main definitions

- `Precedes` — one interval is non-empty and ends before the other begins
-/

section Intervals

variable {ι α : Type*} [LinearOrder α] {lo hi : ι → α}

/-- The interval at `a` is non-empty and ends before the one at `b` begins. -/
def Precedes (lo hi : ι → α) (a b : ι) : Prop := lo a < hi a ∧ hi a ≤ lo b

namespace Precedes

theorem disjoint {a b : ι} (h : Precedes lo hi a b) :
    Disjoint (Set.Ico (lo a) (hi a)) (Set.Ico (lo b) (hi b)) := by
  rw [Set.disjoint_left]
  intro x hxa hxb
  exact absurd (hxa.2.trans_le h.2) (not_lt.mpr hxb.1)

theorem trans {a b c : ι} (h : Precedes lo hi a b) (h' : Precedes lo hi b c) :
    Precedes lo hi a c :=
  ⟨h.1, h.2.trans (h'.1.le.trans h'.2)⟩

instance instTransPrecedes : Trans (Precedes lo hi) (Precedes lo hi) (Precedes lo hi) :=
  ⟨Precedes.trans⟩

/-- Of two intervals that do not meet, the one that begins first ends before the
    other begins. -/
theorem of_disjoint {a b : ι} (ha : lo a < hi a) (hb : lo b < hi b) (hle : lo a ≤ lo b)
    (h : Disjoint (Set.Ico (lo a) (hi a)) (Set.Ico (lo b) (hi b))) : Precedes lo hi a b := by
  refine ⟨ha, ?_⟩
  by_contra hlt
  exact Set.disjoint_left.mp h ⟨hle, not_le.mp hlt⟩ ⟨le_rfl, hb⟩

end Precedes

/-- Neighbours that do not overlap precede one another. -/
theorem isChain_precedes {l : List ι} (hne : ∀ a ∈ l, lo a < hi a)
    (h : l.IsChain fun a b => hi a ≤ lo b) : l.IsChain (Precedes lo hi) := by
  induction l with
  | nil => exact List.isChain_nil
  | cons a l ih =>
    cases l with
    | nil => exact List.isChain_singleton a
    | cons b l =>
      rw [List.isChain_cons_cons] at h ⊢
      exact ⟨⟨hne a (by simp), h.1⟩, ih (fun c hc => hne c (List.mem_cons_of_mem _ hc)) h.2⟩

/-- No two intervals of a sorted list meet if and only if no two neighbours do. -/
theorem pairwise_disjoint_iff_isChain {l : List ι} (hne : ∀ a ∈ l, lo a < hi a)
    (hsorted : l.Pairwise fun a b => lo a ≤ lo b) :
    (l.Pairwise fun a b => Disjoint (Set.Ico (lo a) (hi a)) (Set.Ico (lo b) (hi b))) ↔
      l.IsChain fun a b => hi a ≤ lo b := by
  constructor
  · intro h
    have hpre : l.Pairwise (Precedes lo hi) := by
      refine (List.pairwise_iff_forall_sublist.mpr fun {a b} hab => ?_)
      have ha : a ∈ l := hab.subset (by simp)
      have hb : b ∈ l := hab.subset (by simp)
      exact Precedes.of_disjoint (hne a ha) (hne b hb)
        (List.pairwise_iff_forall_sublist.mp hsorted hab)
        (List.pairwise_iff_forall_sublist.mp h hab)
    exact (List.isChain_iff_pairwise.mpr hpre).imp fun _ _ hab => hab.2
  · intro h
    have hpre := List.isChain_iff_pairwise.mp (isChain_precedes hne h)
    exact hpre.imp fun hab => hab.disjoint

end Intervals
