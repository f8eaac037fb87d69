import DigitalColleagues.Lib.Intervals
import DigitalColleagues.Governance.Lineage
import DigitalColleagues.Governance.Policy
import Mathlib.Tactic.IntervalCases

/-!
# The meaning of working hours

A weekly window stands for a set of slots, the minutes of a week that it spans
from its start on. A policy accepts the lists of windows whose sets of slots
are disjoint, and is within its working hours exactly at the slots of its
windows.

## Main definitions

- `Slot` — a minute of a week, in local time
- `WeeklyWindow.slots` — the minutes of a window, counted from its start
- `samplePolicyOf` — a policy with given windows

## Main results

- `validWindows_iff` — validation compares all windows with each other
- `workingHours_exact` — which windows are accepted, and when a policy is within them
-/

namespace DigitalColleagues

/-- A minute of a local day of the week. -/
structure Slot where
  weekday : Weekday
  minute : Fin 1440

namespace Slot

/-- The number of minutes from the start of the week, Monday at midnight. -/
def position (slot : Slot) : ℕ := 1440 * slot.weekday.index + slot.minute

/-- The wall-clock time of the slot. -/
def localTime (slot : Slot) : LocalTime := ⟨slot.weekday.index, slot.minute⟩

end Slot

/-- The number of minutes of a window, which ends within a day of its start. -/
def WeeklyWindow.duration (w : WeeklyWindow) : ℕ :=
  if w.startMinute < w.endMinute then w.endMinute - w.startMinute
  else 1440 - w.startMinute + w.endMinute

/-- The slots fewer than `duration` minutes after the start of the window, in a week
    without an end. -/
def WeeklyWindow.slots (w : WeeklyWindow) : Set Slot :=
  { slot | (slot.position + 10080 - (1440 * w.weekday.index + w.startMinute)) % 10080 < w.duration }

theorem Weekday.index_lt (d : Weekday) : d.index < 7 := by
  cases d <;> decide

theorem Weekday.exists_index {n : ℕ} (h : n < 7) : ∃ d : Weekday, d.index = n := by
  interval_cases n
  exacts [⟨.monday, rfl⟩, ⟨.tuesday, rfl⟩, ⟨.wednesday, rfl⟩, ⟨.thursday, rfl⟩, ⟨.friday, rfl⟩,
    ⟨.saturday, rfl⟩, ⟨.sunday, rfl⟩]

theorem Slot.exists_position {n : ℕ} (h : n < 10080) : ∃ slot : Slot, slot.position = n := by
  obtain ⟨d, hd⟩ := Weekday.exists_index (n := n / 1440) (by omega)
  refine ⟨⟨d, ⟨n % 1440, by omega⟩⟩, ?_⟩
  simp only [Slot.position, hd]
  omega

-- ═══════════════════════════════════════════════════════════════════
-- The intervals of a window
-- ═══════════════════════════════════════════════════════════════════

namespace DayInterval

/-- The first minute of an interval, from the start of the week. -/
def lo (i : DayInterval) : ℕ := 1440 * i.day + i.start

/-- The minute at which an interval is over, from the start of the week. -/
def hi (i : DayInterval) : ℕ := 1440 * i.day + i.stop

/-- An interval of one day of the week that is not empty. -/
structure Proper (i : DayInterval) : Prop where
  day_lt : i.day < 7
  start_lt : i.start < i.stop
  stop_le : i.stop ≤ 1440

theorem Proper.lo_lt_hi {i : DayInterval} (h : i.Proper) : i.lo < i.hi :=
  Nat.add_lt_add_left h.start_lt _

theorem Proper.hi_le {i : DayInterval} (h : i.Proper) : i.hi ≤ 10080 := by
  have hday := h.day_lt
  have hstop := h.stop_le
  simp only [hi]
  omega

/-- Python's order on the triples puts the intervals in the order of the week. -/
theorem Proper.lo_le {i j : DayInterval} (hi : i.Proper) (hle : i.le j) :
    i.lo ≤ j.lo := by
  have h₁ := hi.start_lt
  have h₂ := hi.stop_le
  simp only [DayInterval.le, lo] at hle ⊢
  omega

/-- The comparison of neighbours is the one of the ends of the intervals. -/
theorem Proper.hi_le_lo_iff {i j : DayInterval} (hi : i.Proper) (hle : i.le j) :
    i.hi ≤ j.lo ↔ ¬(i.day = j.day ∧ j.start < i.stop) := by
  have h₁ := hi.start_lt
  have h₂ := hi.stop_le
  simp only [DayInterval.le, DayInterval.hi, lo] at hle ⊢
  omega

instance instTotalLe : Std.Total DayInterval.le :=
  ⟨fun a b => by simp only [DayInterval.le]; omega⟩

instance instTransLe : IsTrans DayInterval DayInterval.le :=
  ⟨fun a b c => by simp only [DayInterval.le]; omega⟩

end DayInterval

namespace WeeklyWindow

theorem expandedIntervals_proper (w : WeeklyWindow) : ∀ i ∈ w.expandedIntervals, i.Proper := by
  have hday := w.weekday.index_lt
  have hstart := w.start_lt
  have hend := w.end_le
  have hzero := w.end_ne_zero
  intro i hi
  unfold expandedIntervals at hi
  by_cases h : w.startMinute < w.endMinute
  · rw [if_pos h, List.mem_singleton] at hi
    subst hi
    exact ⟨hday, h, hend⟩
  · rw [if_neg h, List.mem_pair] at hi
    obtain rfl | rfl := hi
    · exact ⟨hday, hstart, le_rfl⟩
    · exact ⟨Nat.mod_lt _ (by decide), Nat.pos_of_ne_zero hzero, hend⟩

/-- The two parts of an overnight window are parts of different days. -/
theorem expandedIntervals_pairwise (w : WeeklyWindow) :
    w.expandedIntervals.Pairwise fun i j =>
      Disjoint (Set.Ico i.lo i.hi) (Set.Ico j.lo j.hi) := by
  have hday := w.weekday.index_lt
  have hend := w.end_le
  unfold expandedIntervals
  by_cases h : w.startMinute < w.endMinute
  · rw [if_pos h]
    exact List.pairwise_singleton _ _
  · rw [if_neg h, List.pairwise_pair, Set.disjoint_left]
    intro x hx hx'
    simp only [DayInterval.lo, DayInterval.hi, Set.mem_Ico] at hx hx'
    omega

/-- The expansion covers the slots of the window, over midnight and over the end of
    the week. -/
theorem mem_slots_iff (w : WeeklyWindow) (slot : Slot) :
    slot ∈ w.slots ↔ ∃ i ∈ w.expandedIntervals, slot.position ∈ Set.Ico i.lo i.hi := by
  have hday := w.weekday.index_lt
  have hstart := w.start_lt
  have hend := w.end_le
  have hslot := slot.weekday.index_lt
  have hminute := slot.minute.isLt
  have hpos : slot.position = 1440 * slot.weekday.index + slot.minute := rfl
  show (slot.position + 10080 - (1440 * w.weekday.index + w.startMinute)) % 10080 < w.duration ↔ _
  unfold expandedIntervals duration
  by_cases h : w.startMinute < w.endMinute
  · simp only [if_pos h, List.mem_singleton, exists_eq_left, DayInterval.lo, DayInterval.hi,
      Set.mem_Ico]
    omega
  · simp only [if_neg h, List.mem_pair, exists_eq_or_imp, exists_eq_left, DayInterval.lo,
      DayInterval.hi, Set.mem_Ico]
    omega

/-- The evaluation of a window agrees with its expansion. -/
theorem covers_eq_true (w : WeeklyWindow) (slot : Slot) :
    w.covers slot.localTime = true ↔
      ∃ i ∈ w.expandedIntervals, slot.position ∈ Set.Ico i.lo i.hi := by
  have hend := w.end_le
  have hminute := slot.minute.isLt
  unfold covers expandedIntervals
  by_cases h : w.startMinute < w.endMinute
  · rw [if_pos h, if_pos h, decide_eq_true_eq]
    simp only [List.mem_singleton, exists_eq_left, DayInterval.lo, DayInterval.hi, Set.mem_Ico,
      Slot.localTime, Slot.position]
    omega
  · rw [if_neg h, if_neg h, decide_eq_true_eq]
    simp only [List.mem_pair, exists_eq_or_imp, exists_eq_left, DayInterval.lo, DayInterval.hi,
      Set.mem_Ico, Slot.localTime, Slot.position]
    omega

theorem covers_iff_mem_slots (w : WeeklyWindow) (slot : Slot) :
    w.covers slot.localTime = true ↔ slot ∈ w.slots :=
  (w.covers_eq_true slot).trans (w.mem_slots_iff slot).symm

/-- Two windows share no slot if and only if none of their intervals meet. -/
theorem disjoint_slots_iff (w w' : WeeklyWindow) :
    Disjoint w.slots w'.slots ↔ ∀ i ∈ w.expandedIntervals, ∀ j ∈ w'.expandedIntervals,
      Disjoint (Set.Ico i.lo i.hi) (Set.Ico j.lo j.hi) := by
  simp only [Set.disjoint_left, mem_slots_iff]
  constructor
  · intro h i hi j hj n hni hnj
    obtain ⟨slot, rfl⟩ :=
      Slot.exists_position (hni.2.trans_le (w.expandedIntervals_proper i hi).hi_le)
    exact h ⟨i, hi, hni⟩ ⟨j, hj, hnj⟩
  · rintro h slot ⟨i, hi, hni⟩ ⟨j, hj, hnj⟩
    exact h i hi j hj hni hnj

end WeeklyWindow

-- ═══════════════════════════════════════════════════════════════════
-- Validation and evaluation
-- ═══════════════════════════════════════════════════════════════════

/-- The comparison of neighbours in the sorted list is the comparison of all pairs. -/
theorem sorted_isChain_iff {l : List DayInterval} (hproper : ∀ i ∈ l, i.Proper) :
    ((l.insertionSort DayInterval.le).IsChain
        fun previous current => ¬(previous.day = current.day ∧ current.start < previous.stop)) ↔
      l.Pairwise fun i j => Disjoint (Set.Ico i.lo i.hi) (Set.Ico j.lo j.hi) := by
  have hperm : (l.insertionSort DayInterval.le).Perm l := List.perm_insertionSort _ l
  have hproper' : ∀ i ∈ l.insertionSort DayInterval.le, i.Proper :=
    fun i hi => hproper i (hperm.mem_iff.mp hi)
  have hle : (l.insertionSort DayInterval.le).Pairwise DayInterval.le :=
    List.pairwise_insertionSort _ l
  have hsorted : (l.insertionSort DayInterval.le).Pairwise fun i j => i.lo ≤ j.lo :=
    hle.imp_of_mem fun hi _ h => (hproper' _ hi).lo_le h
  have hchain : ((l.insertionSort DayInterval.le).IsChain
        fun previous current => ¬(previous.day = current.day ∧ current.start < previous.stop)) ↔
      (l.insertionSort DayInterval.le).IsChain fun i j => i.hi ≤ j.lo := by
    rw [List.isChain_iff_getElem, List.isChain_iff_getElem]
    refine forall_congr' fun n => forall_congr' fun hn => ?_
    exact ((hproper' _ (List.getElem_mem _)).hi_le_lo_iff
      (List.isChain_iff_getElem.mp hle.isChain n hn)).symm
  rw [hchain, ← pairwise_disjoint_iff_isChain (fun i hi => (hproper' i hi).lo_lt_hi) hsorted]
  exact hperm.pairwise_iff fun h => h.symm

/-- `_validate_windows` accepts the windows that share no slot. -/
theorem validWindows_iff (windows : List WeeklyWindow) :
    ValidWindows windows ↔
      windows ≠ [] ∧ windows.Pairwise fun w w' => Disjoint w.slots w'.slots := by
  have hproper : ∀ i ∈ windows.flatMap WeeklyWindow.expandedIntervals, i.Proper := by
    intro i hi
    obtain ⟨w, -, hiw⟩ := List.mem_flatMap.mp hi
    exact w.expandedIntervals_proper i hiw
  have hown : ∀ w ∈ windows, w.expandedIntervals.Pairwise fun i j =>
      Disjoint (Set.Ico i.lo i.hi) (Set.Ico j.lo j.hi) :=
    fun w _ => w.expandedIntervals_pairwise
  unfold ValidWindows
  rw [sorted_isChain_iff hproper, List.pairwise_flatMap, and_iff_right hown]
  simp only [WeeklyWindow.disjoint_slots_iff]

/-- A policy is within its working hours at the slots of its windows. -/
theorem withinWorkingHours_iff {zones : TimeZones} {policy : ColleaguePolicy} {now : Instant}
    {slot : Slot} (h : zones policy.timezone now = slot.localTime) :
    withinWorkingHours zones policy now = true ↔ ∃ w ∈ policy.weeklyWindows, slot ∈ w.slots := by
  unfold withinWorkingHours
  rw [h, List.any_eq_true]
  simp only [WeeklyWindow.covers_iff_mem_slots]

/-- Windows that share no slot leave at most one of them for each slot. -/
theorem unique_window {windows : List WeeklyWindow}
    (h : windows.Pairwise fun w w' => Disjoint w.slots w'.slots) {slot : Slot}
    {i j : Fin windows.length} (hi : slot ∈ (windows.get i).slots)
    (hj : slot ∈ (windows.get j).slots) : i = j := by
  rw [List.pairwise_iff_get] at h
  by_contra hne
  obtain hlt | hlt := lt_or_gt_of_ne hne
  · exact Set.disjoint_left.mp (h i j hlt) hi hj
  · exact Set.disjoint_left.mp (h j i hlt) hj hi

theorem sampleTriggers_ne_nil : [DurableTriggerKind.event] ≠ [] := List.cons_ne_nil _ _

theorem sampleLimit_bounds : 1 ≤ 3 ∧ 3 ≤ 100 := by decide

/-- A policy with the given windows. -/
def samplePolicyOf (windows : List WeeklyWindow) (h : ValidWindows windows) : ColleaguePolicy where
  policyId := stableId "policy-1"
  mandateId := stableId "mandate-1"
  mandateRevision := 1
  timezone := "UTC"
  weeklyWindows := windows
  allowedTriggers := [.event]
  proactivity := .bounded
  notification := .enabled
  interruption := .allowed
  wakeBudget := { limit := 7, period := .day }
  outsideHours := .defer
  stopConditions := []
  escalationConditions := []
  failureLimit := 3
  runState := .active
  revision := 1
  issuedBy := sampleAdmin
  effectiveAt := 100
  windows_valid := h
  allowedTriggers_ne_nil := sampleTriggers_ne_nil
  allowedTriggers_nodup := List.nodup_singleton DurableTriggerKind.event
  stopConditions_nodup := List.nodup_nil
  escalationConditions_nodup := List.nodup_nil
  failureLimit_bounds := sampleLimit_bounds
  issued_by_human := Eq.refl PrincipalKind.human

/-- The lists of windows that a policy can have are the non-empty ones whose windows
    share no slot, and a policy is within its working hours at the slots that belong to
    one of its windows, which is then the only one. -/
theorem workingHours_exact :
    (∀ windows : List WeeklyWindow, (∃ policy : ColleaguePolicy, policy.weeklyWindows = windows) ↔
      windows ≠ [] ∧ windows.Pairwise fun w w' => Disjoint w.slots w'.slots) ∧
    ∀ (zones : TimeZones) (policy : ColleaguePolicy) (now : Instant) (slot : Slot),
      zones policy.timezone now = slot.localTime →
        (withinWorkingHours zones policy now = true ↔
          ∃ w ∈ policy.weeklyWindows, slot ∈ w.slots) ∧
        (withinWorkingHours zones policy now = true ↔
          ∃! i : Fin policy.weeklyWindows.length, slot ∈ (policy.weeklyWindows.get i).slots) := by
  refine ⟨fun windows => ?_, fun zones policy now slot hlocal =>
    ⟨withinWorkingHours_iff hlocal, ?_⟩⟩
  · rw [← validWindows_iff]
    constructor
    · rintro ⟨policy, rfl⟩
      exact policy.windows_valid
    · intro h
      exact ⟨samplePolicyOf windows h, rfl⟩
  · rw [withinWorkingHours_iff hlocal]
    constructor
    · rintro ⟨w, hw, hslot⟩
      obtain ⟨i, rfl⟩ := List.get_of_mem hw
      exact ⟨i, hslot, fun j hj =>
        unique_window ((validWindows_iff _).mp policy.windows_valid).2 hj hslot⟩
    · rintro ⟨i, hslot, -⟩
      exact ⟨_, List.get_mem _ _, hslot⟩

/-- From Sunday evening to Monday morning. -/
def sampleNight : WeeklyWindow :=
  { weekday := .sunday, startMinute := 1320, endMinute := 360 }

theorem sampleNight_valid : ValidWindows [sampleNight] := by decide

theorem workingHours_exact_night :
    withinWorkingHours (fun _ _ => ⟨0, 359⟩) (samplePolicyOf [sampleNight] sampleNight_valid) 0 =
        true ↔
      ∃ w ∈ [sampleNight], (⟨.monday, 359⟩ : Slot) ∈ w.slots :=
  (workingHours_exact.2 (fun _ _ => ⟨0, 359⟩) (samplePolicyOf [sampleNight] sampleNight_valid) 0
    ⟨.monday, 359⟩ rfl).1

end DigitalColleagues
