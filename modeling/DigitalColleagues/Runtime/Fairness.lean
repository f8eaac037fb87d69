import DigitalColleagues.Runtime.AgendaMoves

/-!
# Fair selection

While an agenda item waits, each selection of another item takes away one of
its rivals: the items that have been passed over at least as often. The selected
rival starts again from zero, the waiting item gains one on everything that
arrives later, so only the items present at the first such selection can ever be
selected before it.
-/

namespace DigitalColleagues

open Keyed AgendaTables

-- ════════════════════════════════════════════════════════════════════════
-- Waiting items and their rivals
-- ════════════════════════════════════════════════════════════════════════

/-- Pending with an unhandled generation: what is passed over by a selection. -/
def AgendaRow.Waiting (r : AgendaRow) : Prop :=
  r.handledGeneration < r.generation ∧ r.state = .pending

instance (r : AgendaRow) : Decidable r.Waiting := inferInstanceAs (Decidable (_ ∧ _))

/-- The item is waiting. -/
def AgendaTables.Waiting (s : AgendaTables) (item : StableId) : Prop :=
  (s.agendaRuntime.find? item).any fun r => decide r.Waiting

instance (s : AgendaTables) (item : StableId) : Decidable (s.Waiting item) :=
  inferInstanceAs (Decidable (_ = true))

/-- The number of agenda items other than the given one. -/
def AgendaTables.otherItems (s : AgendaTables) (item : StableId) : ℕ :=
  s.agendaRuntime.sum fun r => if r.agendaItemId ≠ item then 1 else 0

/-- The number of other items that were passed over at least `count` times. -/
def rivals (rows : Table AgendaRow) (item : StableId) (count : ℕ) : ℕ :=
  rows.sum fun r => if r.agendaItemId ≠ item ∧ count ≤ r.starvationCount then 1 else 0

theorem rivals_le_otherItems (s : AgendaTables) (item : StableId) (count : ℕ) :
    rivals s.agendaRuntime item count ≤ s.otherItems item := by
  refine Table.sum_le_sum fun r _ => ?_
  split
  · rename_i h
    simp [h.1]
  · exact Nat.zero_le _

theorem AgendaTables.waiting_iff {s : AgendaTables} {item : StableId} :
    s.Waiting item ↔ ∃ x, s.agendaRuntime.find? item = some x ∧ x.Waiting := by
  simp [Waiting, Option.any_eq_true]

/-- A waiting row can be claimed at any time. -/
theorem AgendaRow.Waiting.claimable {r : AgendaRow} (h : r.Waiting) (now : Instant) :
    r.claimable now = true := by
  simp [AgendaRow.claimable, h.1, h.2]

/-- The next row selected has been passed over at least as often as any that waits. -/
theorem AgendaTables.starvationCount_le_of_nextAgenda {s : AgendaTables} {now : Instant}
    {row x : AgendaRow} (h : s.nextAgenda now = some row) (hx : x ∈ s.agendaRuntime)
    (hwait : x.Waiting) : x.starvationCount ≤ row.starvationCount := by
  have hle := Table.selectMin_le h hx (hwait.claimable now)
  rcases Prod.Lex.le_iff.mp hle with hlt | ⟨heq, _⟩
  · have : -(row.starvationCount : ℤ) < -(x.starvationCount : ℤ) := hlt
    omega
  · have : -(row.starvationCount : ℤ) = -(x.starvationCount : ℤ) := heq
    omega

-- ════════════════════════════════════════════════════════════════════════
-- What a step does to the rivals
-- ════════════════════════════════════════════════════════════════════════

theorem AgendaRow.passOver_agendaItemId (r : AgendaRow) (selected : StableId) :
    (r.passOver selected).agendaItemId = r.agendaItemId := by
  unfold passOver
  split <;> rfl

theorem AgendaRow.passOver_starvationCount_le (r : AgendaRow) (selected : StableId) :
    (r.passOver selected).starvationCount ≤ r.starvationCount + 1 := by
  unfold passOver
  split <;> simp

theorem AgendaRow.Waiting.passOver {r : AgendaRow} (h : r.Waiting) {selected : StableId}
    (hne : r.agendaItemId ≠ selected) :
    r.passOver selected = { r with starvationCount := r.starvationCount + 1 } := by
  rw [AgendaRow.passOver, if_pos ⟨h.1, h.2, hne⟩]

/-- A step that selects nothing: the item keeps its starvation count and gains
    no rival once it has been passed over. -/
def KeepsRivals (item : StableId) (rows rows' : Table AgendaRow) : Prop :=
  ∀ x, rows.find? item = some x → (∃ x', rows'.find? item = some x' ∧
    x'.starvationCount = x.starvationCount) ∧
    ∀ count, 1 ≤ count → rivals rows' item count ≤ rivals rows item count

namespace KeepsRivals

variable {item : StableId} {rows rows' : Table AgendaRow}

theorem refl (item : StableId) (rows : Table AgendaRow) : KeepsRivals item rows rows :=
  fun x hx => ⟨⟨x, hx, rfl⟩, fun _ _ => le_rfl⟩

theorem insert {r : AgendaRow} (h : rows.insert? r = some rows') (hzero : r.starvationCount = 0) :
    KeepsRivals item rows rows' := by
  intro x hx
  refine ⟨⟨x, Table.find?_insert_of_some h hx, rfl⟩, fun count hcount => ?_⟩
  unfold rivals
  rw [Table.sum_insert h, if_neg (by omega)]
  exact le_rfl

theorem replace {r o : AgendaRow} (hold : rows.find? r.agendaItemId = some o)
    (hsame : r.starvationCount = o.starvationCount) :
    KeepsRivals item rows (rows.replace r) := by
  intro x hx
  have hkey : o.agendaItemId = r.agendaItemId := Table.key_of_find? hold
  constructor
  · by_cases hr : item = r.agendaItemId
    · subst hr
      obtain rfl := Option.some.inj (hold.symm.trans hx)
      exact ⟨r, Table.find?_replace_self hold, hsame⟩
    · exact ⟨x, (Table.find?_replace_of_ne hr).trans hx, rfl⟩
  · intro count _
    have hsum := Table.sum_replace (r := r) hold fun r : AgendaRow =>
      if r.agendaItemId ≠ item ∧ count ≤ r.starvationCount then 1 else 0
    simp only [hkey, hsame] at hsum
    unfold rivals
    omega

end KeepsRivals

/-- **Selecting another item**: the waiting item is passed over, and the selected
    one is a rival no more. -/
theorem rivals_select {rows : Table AgendaRow} {row x : AgendaRow} {owner : StableId}
    {leaseUntil : Instant} (hrow : rows.find? row.agendaItemId = some row)
    (hne : row.agendaItemId ≠ x.agendaItemId) (hle : x.starvationCount ≤ row.starvationCount) :
    rivals ((AgendaRow.passOverAll rows row.agendaItemId).replace (row.select owner leaseUntil))
      x.agendaItemId (x.starvationCount + 1) + 1 ≤
    rivals rows x.agendaItemId x.starvationCount := by
  have hpassed : (AgendaRow.passOverAll rows row.agendaItemId).find?
      (key (row.select owner leaseUntil)) = some row := by
    show (AgendaRow.passOverAll rows row.agendaItemId).find? row.agendaItemId = some row
    rw [AgendaRow.find?_passOverAll, hrow, Option.map_some, AgendaRow.passOver_self]
  have hselected : ¬(x.starvationCount + 1 ≤ (row.select owner leaseUntil).starvationCount) :=
    Nat.not_succ_le_zero _
  have hrival := Table.sum_eq_add (Table.mem_of_find? hrow) fun r : AgendaRow =>
    if r.agendaItemId ≠ x.agendaItemId ∧ x.starvationCount ≤ r.starvationCount then 1 else 0
  rw [if_pos ⟨hne, hle⟩] at hrival
  unfold rivals
  rw [Table.sum_replace_eq_add hpassed, if_neg fun h => hselected h.2, zero_add,
    AgendaRow.passOverAll, Table.sum_update, hrival, add_comm]
  refine Nat.add_le_add_left (Table.sum_le_sum fun y _ => ?_) 1
  have hkey : key (y.passOver row.agendaItemId) = key y := y.passOver_agendaItemId _
  have hcount := y.passOver_starvationCount_le row.agendaItemId
  rw [hkey, AgendaRow.passOver_agendaItemId]
  show (if key y = key row then 0 else _) ≤ _
  split
  · exact Nat.zero_le _
  · split
    · rename_i h
      rw [if_pos ⟨h.1, by omega⟩]
    · exact Nat.zero_le _

/-- The rivals of an item while it waits. -/
def AgendaTables.rivalsOf (s : AgendaTables) (item : StableId) : ℕ :=
  match s.agendaRuntime.find? item with
  | some x => if x.Waiting then rivals s.agendaRuntime item x.starvationCount else 0
  | none => 0

theorem AgendaTables.rivalsOf_le_otherItems (s : AgendaTables) (item : StableId) :
    s.rivalsOf item ≤ s.otherItems item := by
  unfold rivalsOf
  split
  · split
    · exact rivals_le_otherItems s item _
    · exact Nat.zero_le _
  · exact Nat.zero_le _

/-- An item that waits has been passed over before. -/
def AgendaTables.PassedOver (s : AgendaTables) (item : StableId) : Prop :=
  ∀ x, s.agendaRuntime.find? item = some x → x.Waiting → 1 ≤ x.starvationCount

theorem AgendaTables.rivalsOf_eq {s : AgendaTables} {item : StableId} {x : AgendaRow}
    (hx : s.agendaRuntime.find? item = some x) (hwait : x.Waiting) :
    s.rivalsOf item = rivals s.agendaRuntime item x.starvationCount := by
  simp only [rivalsOf, hx, if_pos hwait]

/-- A step that selects nothing takes no rival away and adds none. -/
theorem AgendaTables.rivalsOf_keep {s t : AgendaTables} {item : StableId}
    (h : KeepsRivals item s.agendaRuntime t.agendaRuntime) (hwait : s.Waiting item)
    (hpassed : s.PassedOver item) :
    t.PassedOver item ∧ t.rivalsOf item ≤ s.rivalsOf item := by
  obtain ⟨x, hx, hxw⟩ := waiting_iff.mp hwait
  obtain ⟨⟨x', hx', hsame⟩, hrivals⟩ := h x hx
  have hpos := hpassed x hx hxw
  constructor
  · intro y hy _
    obtain rfl := Option.some.inj (hx'.symm.trans hy)
    omega
  · by_cases hw : x'.Waiting
    · rw [rivalsOf_eq hx' hw, rivalsOf_eq hx hxw, hsame]
      exact hrivals _ hpos
    · simp only [rivalsOf, hx', if_neg hw]
      exact Nat.zero_le _

/-- The selection of another item passes a waiting one over and takes away one
    of its rivals. -/
theorem AgendaTables.rivalsOf_select {s t : AgendaTables} {row : AgendaRow} {owner : StableId}
    {now leaseUntil : Instant} {item : StableId} (hnext : s.nextAgenda now = some row)
    (hne : row.agendaItemId ≠ item) (hwait : s.Waiting item)
    (ht : t.agendaRuntime = (AgendaRow.passOverAll s.agendaRuntime row.agendaItemId).replace
      (row.select owner leaseUntil)) :
    t.PassedOver item ∧ t.rivalsOf item + 1 ≤ s.rivalsOf item := by
  obtain ⟨x, hx, hxw⟩ := waiting_iff.mp hwait
  obtain rfl : x.agendaItemId = item := Table.key_of_find? hx
  have hrow := Table.find?_of_mem (Table.selectMin_mem hnext).1
  have hpassed : t.agendaRuntime.find? x.agendaItemId =
      some { x with starvationCount := x.starvationCount + 1 } := by
    rw [ht, Table.find?_replace_of_ne (Ne.symm hne), AgendaRow.find?_passOverAll, hx,
      Option.map_some, hxw.passOver (Ne.symm hne)]
  constructor
  · intro x' hx' _
    obtain rfl := Option.some.inj (hpassed.symm.trans hx')
    exact Nat.succ_le_succ (Nat.zero_le _)
  · rw [rivalsOf_eq hpassed hxw, rivalsOf_eq hx hxw, ht]
    exact rivals_select hrow hne
      (starvationCount_le_of_nextAgenda hnext (Table.mem_of_find? hx) hxw)

/-- Once an item was passed over, no step gives it a new rival while it waits. -/
theorem AgendaSide.rivalsOf_move {C : AgendaRow → AgendaClaim → Prop} {s t : AgendaSide}
    {item : StableId} (h : Move C s t) (hwait : s.tables.Waiting item)
    (hpassed : s.tables.PassedOver item) :
    t.tables.PassedOver item ∧ t.tables.rivalsOf item ≤ s.tables.rivalsOf item := by
  cases h with
  | idle => exact ⟨hpassed, le_rfl⟩
  | ingest hruntime _ _ _ _ _ _ =>
    exact rivalsOf_keep (hruntime ▸ .refl item _) hwait hpassed
  | claimTrigger _ _ =>
    exact rivalsOf_keep (by simpa using .refl item _) hwait hpassed
  | create _ _ _ _ _ _ hruntime =>
    exact rivalsOf_keep (by simpa [completeTrigger] using .insert hruntime rfl) hwait hpassed
  | coalesce _ _ _ _ hrow _ _ _ _ =>
    exact rivalsOf_keep (by simpa [completeTrigger] using .replace hrow rfl) hwait hpassed
  | @select row existing selected agendaItems owner now leaseUntil hnext hrow _ _ _ =>
    by_cases hid : row.agendaItemId = item
    · -- the item itself is selected and waits no longer
      subst hid
      have hselected := Table.find?_replace_self (t := AgendaRow.passOverAll s.tables.agendaRuntime
        row.agendaItemId) (r := row.select owner leaseUntil) (x := row) (by
          show (AgendaRow.passOverAll _ _).find? row.agendaItemId = some row
          rw [AgendaRow.find?_passOverAll, hrow, Option.map_some, AgendaRow.passOver_self])
      have hnot : ¬(row.select owner leaseUntil).Waiting := fun hw => by
        simp [AgendaRow.Waiting, AgendaRow.select] at hw
      constructor
      · intro x hx hw
        obtain rfl := Option.some.inj (hselected.symm.trans hx)
        exact absurd hw hnot
      · unfold rivalsOf
        split
        · rename_i x hx
          obtain rfl := Option.some.inj (hselected.symm.trans hx)
          rw [if_neg hnot]
          exact Nat.zero_le _
        · exact Nat.zero_le _
    · refine And.imp_right Nat.le_of_succ_le
        (@rivalsOf_select _ _ _ owner _ leaseUntil _ hnext hid hwait ?_)
      rfl
  | @release claim row _ _ _ _ hrow _ _ _ =>
    have hfind := (requireAgendaClaim_eq_ok hrow).1
    have hid : row.agendaItemId = claim.agendaItem.agendaItemId := Table.key_of_find? hfind
    exact rivalsOf_keep (.replace (r := row.release) (o := row) (hid ▸ hfind) rfl) hwait hpassed
  | @checkpoint claim row _ _ _ _ _ _ _ hrow _ _ _ _ _ _ =>
    have hfind := (requireAgendaClaim_eq_ok hrow).1
    have hid : row.agendaItemId = claim.agendaItem.agendaItemId := Table.key_of_find? hfind
    exact rivalsOf_keep (.replace (r := row.checkpoint claim.claimedGeneration) (o := row)
      (hid ▸ hfind) rfl) hwait hpassed

-- ════════════════════════════════════════════════════════════════════════
-- Runs
-- ════════════════════════════════════════════════════════════════════════

/-- A `claim_agenda` that hands out another item. -/
def claimsOther {ε : Type} (item : StableId) (e : Transition (RuntimeState ε) (RuntimeAction ε)) :
    Bool :=
  match e.action with
  | .agenda (.claimAgenda owner now leaseUntil) =>
    match e.source.agenda.tables.claimAgenda owner now leaseUntil with
    | .ok (some claim, _) => decide (claim.agendaItem.agendaItemId ≠ item)
    | _ => false
  | _ => false

/-- The times at which the claims of a run are made. -/
def claimTimes {ε : Type} (tr : List (Transition (RuntimeState ε) (RuntimeAction ε))) :
    List Instant :=
  tr.filterMap fun e =>
    match e.action with
    | .agenda (.claimAgenda _ now _) => some now
    | _ => none

theorem claimsOther_eq_true {ε : Type} {item : StableId}
    {e : Transition (RuntimeState ε) (RuntimeAction ε)} (h : claimsOther item e = true) :
    ∃ owner now leaseUntil claim tables,
      e.action = .agenda (.claimAgenda owner now leaseUntil) ∧
      e.source.agenda.tables.claimAgenda owner now leaseUntil = .ok (some claim, tables) ∧
      claim.agendaItem.agendaItemId ≠ item := by
  unfold claimsOther at h
  split at h
  · rename_i owner now leaseUntil haction
    split at h
    · rename_i claim tables hclaim
      exact ⟨owner, now, leaseUntil, claim, tables, haction, hclaim, of_decide_eq_true h⟩
    · exact absurd h (by simp)
  · exact absurd h (by simp)

section Runs

variable {ε : Type} {hooks : StoreHooks ε} {item : StableId}

/-- The runs in which an item waits before every step. -/
def whileWaiting (hooks : StoreHooks ε) (item : StableId) :
    TransitionSystem (RuntimeState ε) (RuntimeAction ε) :=
  (runtime hooks).restrict fun s _ => s.agenda.tables.Waiting item

theorem rivalsOf_claimsOther {s t : RuntimeState ε} {a : RuntimeAction ε}
    (h : (whileWaiting hooks item).step s a t) (hother : claimsOther item ⟨s, a, t⟩ = true) :
    t.agenda.tables.PassedOver item ∧
      t.agenda.tables.rivalsOf item + 1 ≤ s.agenda.tables.rivalsOf item := by
  obtain ⟨hstep, hwait⟩ := h
  obtain ⟨owner, now, leaseUntil, claim, tables, haction, hclaim, hne⟩ := claimsOther_eq_true hother
  obtain rfl : a = .agenda (.claimAgenda owner now leaseUntil) := haction
  have hexec : s.exec hooks (.agenda (.claimAgenda owner now leaseUntil)) = .ok t := hstep
  have hclaim : s.agenda.tables.claimAgenda owner now leaseUntil = .ok (some claim, tables) :=
    hclaim
  simp only [RuntimeState.exec, AgendaSide.exec, hclaim, bind_eq_ok, pure_eq_ok, Prod.exists,
    Except.ok.injEq, Prod.mk.injEq] at hexec
  obtain ⟨_, ⟨_, _, ⟨rfl, rfl⟩, rfl⟩, ht⟩ := hexec
  rcases claimAgenda_eq_ok hclaim with ⟨_, hnone, _⟩ |
    ⟨row, existing, selected, agendaItems, hnext, hexisting, hselected, _, hrow, rfl⟩
  · exact absurd hnone (by simp)
  · obtain rfl := Option.some.inj hrow
    have hid : selected.agendaItemId = row.agendaItemId := by
      simp [hselected, agendaItemId_of_find? hexisting]
    rw [← ht]
    exact rivalsOf_select hnext (hid ▸ hne) hwait rfl

theorem rivalsOf_step {s t : RuntimeState ε} {a : RuntimeAction ε}
    (h : (whileWaiting hooks item).step s a t) (hpassed : s.agenda.tables.PassedOver item) :
    t.agenda.tables.PassedOver item ∧
      t.agenda.tables.rivalsOf item ≤ s.agenda.tables.rivalsOf item :=
  AgendaSide.rivalsOf_move (RuntimeState.agenda_step h.1 (commitsWhen_true s a)).move h.2 hpassed

/-- The bound for the runtime of one colleague. -/
theorem countP_claimsOther_le {s t : RuntimeState ε}
    {tr : List (Transition (RuntimeState ε) (RuntimeAction ε))} (h : (runtime hooks).Path s tr t)
    (hwait : ∀ e ∈ tr, e.source.agenda.tables.Waiting item)
    {first : Transition (RuntimeState ε) (RuntimeAction ε)}
    (hfirst : tr.find? (claimsOther item) = some first) :
    tr.countP (claimsOther item) ≤ first.source.agenda.tables.otherItems item := by
  obtain ⟨hother, before, after, rfl, hbefore⟩ := List.find?_eq_some_iff_append.mp hfirst
  have hrun : (whileWaiting hooks item).Path s (before ++ first :: after) t := h.restrict hwait
  obtain ⟨_, hstep, hafter⟩ := hrun.of_append_cons
  -- the first of the claims passes the item over, so that arrivals after it are no rivals
  obtain ⟨hpassed, hlt⟩ := rivalsOf_claimsOther hstep hother
  have hkeeps : (whileWaiting hooks item).Preserved fun s => s.agenda.tables.PassedOver item :=
    fun _ _ _ hs hst => (rivalsOf_step hst hs).1
  have hcount := TransitionSystem.Path.countP_le (μ := fun s => s.agenda.tables.rivalsOf item)
    (p := claimsOther item) hkeeps
    (fun _ _ _ _ hst hp => (rivalsOf_claimsOther hst hp).2)
    (fun _ _ _ hs hst => (rivalsOf_step hst hs).2) hafter hpassed
  have hzero : before.countP (claimsOther item) = 0 :=
    List.countP_eq_zero.mpr fun e he => by simpa using hbefore e he
  have hothers := first.source.agenda.tables.rivalsOf_le_otherItems item
  simp only [List.countP_append, List.countP_cons, hzero, if_pos hother]
  omega

/-- While an item waits, the number of claims in its namespace that hand out
    another item is at most the number of other items present when the first of
    them is made. -/
theorem claims_of_others_le {db db' : StableId → RuntimeState ε}
    {tr : List (Transition (StableId → RuntimeState ε) (StableId × RuntimeAction ε))}
    (h : (database hooks).Path db tr db') (ns : StableId)
    (hwait : ∀ e ∈ TransitionSystem.componentTrace ns tr, e.source.agenda.tables.Waiting item)
    {first : Transition (RuntimeState ε) (RuntimeAction ε)}
    (hfirst : (TransitionSystem.componentTrace ns tr).find? (claimsOther item) = some first) :
    (TransitionSystem.componentTrace ns tr).countP (claimsOther item) ≤
      first.source.agenda.tables.otherItems item :=
  countP_claimsOther_le (TransitionSystem.Path.component h ns) hwait hfirst

end Runs

/-- An event of another type and higher priority arrives and is claimed. -/
def alarmClaimedFirst : List (RuntimeState AuthorityRecords → RuntimeAction AuthorityRecords) :=
  sampleMaterialization (sampleEvent (stableId "event-2") (stableId "alarm") 9)
      (stableId "trigger-2") (stableId "wake-2") (stableId "agenda-2") ++
    [sampleClaimAgenda]

set_option maxRecDepth 4000 in
/-- The run in which the first item, alone when it starts to wait, is passed over. -/
theorem exists_alarmClaimedFirst :
    ∃ (db db' : StableId → RuntimeState AuthorityRecords)
      (tr : List (Transition (RuntimeState AuthorityRecords) (RuntimeAction AuthorityRecords)))
      (tr' : List (Transition _ (StableId × RuntimeAction AuthorityRecords))),
      (database sqliteRuntimeStore).Reachable db ∧ (database sqliteRuntimeStore).Path db tr' db' ∧
      TransitionSystem.componentTrace sampleColleague tr' = tr ∧
      (∀ e ∈ tr, e.source.agenda.tables.Waiting (stableId "agenda-1")) ∧
      (claimTimes tr).length = 1 ∧ tr.countP (claimsOther (stableId "agenda-1")) = 1 ∧
      (db sampleColleague).agenda.tables.otherItems (stableId "agenda-1") = 0 := by
  obtain ⟨db, hdb, hp⟩ := exists_database_of_runsTo sqliteRuntimeStore .empty
    (sampleMaterialization
      (sampleEvent (stableId "event-1") (stableId "message") 5)
      (stableId "trigger-1") (stableId "wake-1") (stableId "agenda-1")) sampleColleague
    (fun s => decide (s.agenda.tables.otherItems (stableId "agenda-1") = 0) &&
      s.runsTo sqliteRuntimeStore alarmClaimedFirst fun tr _ =>
        (tr.all fun e => decide (e.source.agenda.tables.Waiting (stableId "agenda-1"))) &&
        decide ((claimTimes tr).length = 1) &&
        decide (tr.countP (claimsOther (stableId "agenda-1")) = 1)) (by decide)
  simp only [Bool.and_eq_true, decide_eq_true_eq] at hp
  obtain ⟨hothers, hrun⟩ := hp
  obtain ⟨tr, t, hpath, hp⟩ := RuntimeState.exists_path_of_runsTo _ _ _ _ hrun
  simp only [Bool.and_eq_true, List.all_eq_true, decide_eq_true_eq] at hp
  obtain ⟨⟨hwait, htimes⟩, hcount⟩ := hp
  exact ⟨db, _, tr, _, hdb, hpath.lift, TransitionSystem.componentTrace_lift .., hwait, htimes,
    hcount, hothers⟩

theorem claims_of_others_le_alarm :
    ∃ (db db' : StableId → RuntimeState AuthorityRecords)
      (tr : List (Transition _ (StableId × RuntimeAction AuthorityRecords)))
      (first : Transition (RuntimeState AuthorityRecords) (RuntimeAction AuthorityRecords)),
      (database sqliteRuntimeStore).Path db tr db' ∧
      1 = (TransitionSystem.componentTrace sampleColleague tr).countP
        (claimsOther (stableId "agenda-1")) ∧
      (TransitionSystem.componentTrace sampleColleague tr).countP
        (claimsOther (stableId "agenda-1")) ≤
          first.source.agenda.tables.otherItems (stableId "agenda-1") := by
  obtain ⟨db, db', _, tr, _, hpath, rfl, hwait, _, hcount, _⟩ := exists_alarmClaimedFirst
  obtain ⟨e, he, hother⟩ := List.countP_pos_iff.mp (Nat.lt_of_lt_of_eq Nat.one_pos hcount.symm)
  have hsome : ((TransitionSystem.componentTrace sampleColleague tr).find?
      (claimsOther (stableId "agenda-1"))).isSome := List.find?_isSome.mpr ⟨e, he, hother⟩
  obtain ⟨first, hfirst⟩ := Option.isSome_iff_exists.mp hsome
  exact ⟨db, db', tr, first, hpath, hcount.symm,
    claims_of_others_le hpath sampleColleague hwait hfirst⟩

/-- An item that arrives later can be selected first: one that has not been
    passed over yet ranks by its priority alone. -/
theorem not_bounded_by_items_present_at_start :
    ¬ ∀ (db db' : StableId → RuntimeState AuthorityRecords)
      (tr : List (Transition _ (StableId × RuntimeAction AuthorityRecords))),
      (database sqliteRuntimeStore).Reachable db → (database sqliteRuntimeStore).Path db tr db' →
      ∀ ns item,
        (∀ e ∈ TransitionSystem.componentTrace ns tr, e.source.agenda.tables.Waiting item) →
        (claimTimes (TransitionSystem.componentTrace ns tr)).Pairwise (· ≤ ·) →
        (TransitionSystem.componentTrace ns tr).countP (claimsOther item) ≤
          (db ns).agenda.tables.otherItems item := by
  intro hall
  obtain ⟨db, db', _, tr, hdb, hpath, rfl, hwait, htimes, hcount, hothers⟩ :=
    exists_alarmClaimedFirst
  obtain ⟨now, htimes⟩ := List.length_eq_one_iff.mp htimes
  have hle := hall db db' tr hdb hpath sampleColleague _ hwait (by simp [htimes])
  rw [hcount, hothers] at hle
  exact absurd hle (by decide)

/-- A claim at a given time, by `sampleWorker`. -/
def sampleClaimAt {ε : Type} (now : Instant) (_ : RuntimeState ε) : RuntimeAction ε :=
  .agenda (.claimAgenda sampleWorker.principalId now (now + 100))

/-- An item whose lease expired, and another that is claimed, released and claimed again. -/
def claimedAgainAfterRelease :
    List (RuntimeState AuthorityRecords → RuntimeAction AuthorityRecords) :=
  [sampleClaimAt 200,
    fun s => match s.agenda.agendaClaims.getLast? with
      | none => .environment s.rest
      | some claim => .agenda (.releaseAgenda claim),
    sampleClaimAt 201]

set_option maxRecDepth 4000 in
/-- The bound needs the item to be pending: a selection whose lease expired can
    be claimed again, but is not counted as passed over. -/
theorem expired_selection_not_bounded :
    ∃ (s t : RuntimeState AuthorityRecords)
      (tr : List (Transition (RuntimeState AuthorityRecords) (RuntimeAction AuthorityRecords))),
      (runtime sqliteRuntimeStore).Reachable s ∧ (runtime sqliteRuntimeStore).Path s tr t ∧
      (∀ e ∈ tr, ((e.source.agenda.tables.agendaRuntime.find? (stableId "agenda-1")).any
        (AgendaRow.claimable 200)) = true) ∧
      (∀ e ∈ tr, e.source.agenda.tables.otherItems (stableId "agenda-1") = 1) ∧
      tr.countP (claimsOther (stableId "agenda-1")) = 2 := by
  obtain ⟨_, s, hpath, hp⟩ := RuntimeState.exists_path_of_runsTo sqliteRuntimeStore
    (.initial .empty)
    (sampleMaterialization (sampleEvent (stableId "event-1") (stableId "message") 5)
        (stableId "trigger-1") (stableId "wake-1") (stableId "agenda-1") ++
      [sampleClaimAgenda] ++
      sampleMaterialization (sampleEvent (stableId "event-2") (stableId "alarm") 9)
        (stableId "trigger-2") (stableId "wake-2") (stableId "agenda-2"))
    (fun _ s => s.runsTo sqliteRuntimeStore claimedAgainAfterRelease fun tr _ =>
      (tr.all fun e =>
        (e.source.agenda.tables.agendaRuntime.find? (stableId "agenda-1")).any
          (AgendaRow.claimable 200) &&
        decide (e.source.agenda.tables.otherItems (stableId "agenda-1") = 1)) &&
      decide (tr.countP (claimsOther (stableId "agenda-1")) = 2)) (by decide)
  obtain ⟨tr, t, hrun, hp⟩ := RuntimeState.exists_path_of_runsTo _ _ _ _ hp
  simp only [Bool.and_eq_true, List.all_eq_true, decide_eq_true_eq] at hp
  exact ⟨s, t, tr, hpath.reachable (.init ⟨.empty, rfl⟩), hrun, fun e he => (hp.1 e he).1,
    fun e he => (hp.1 e he).2, hp.2⟩

end DigitalColleagues
