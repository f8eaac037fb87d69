import DigitalColleagues.Lib.Process

/-!
# Connections to a transactional database

A connection runs statements one at a time. Outside a transaction each one is
committed at once; inside, the changes are kept apart until a commit. A call can
fail at any time, and a failed call may end the transaction.

## Main definitions

- `SqlEngine` — what the statements of a database do
- `Connection` — the committed database, and the one of the transaction under way
- `SqlEngine.execute`, `.begin`, `.commit`, `.rollback` — the calls on a connection

## Main results

- `committed_each_execute` — a script that runs in a transaction commits nothing
- `each_execute_eq_ok` — a script that returns has done all its changes
- `exists_each_execute` — without outside faults, a script does what its statements do
-/

namespace Process

variable {σ ε ε' α : Type}

/-- A part of the state. -/
def read (f : σ → α) : Process σ ε α := fun s => (.ok (f s), s)

/-- A procedure whose exceptions are of another kind. -/
def mapError (f : ε → ε') (x : Process σ ε α) : Process σ ε' α := fun s =>
  match x s with
  | (.ok a, t) => (.ok a, t)
  | (.error e, t) => (.error (f e), t)

@[simp] theorem mapError_snd (f : ε → ε') (x : Process σ ε α) (s : σ) :
    (x.mapError f s).2 = (x s).2 := by
  simp only [mapError]
  split <;> rename_i h <;> rw [h]

theorem mapError_of_ok (f : ε → ε') {x : Process σ ε α} {s t : σ} {a : α}
    (h : x s = (.ok a, t)) : x.mapError f s = (.ok a, t) := by
  rw [mapError, h]

theorem mapError_of_error (f : ε → ε') {x : Process σ ε α} {s t : σ} {e : ε}
    (h : x s = (.error e, t)) : x.mapError f s = (.error (f e), t) := by
  rw [mapError, h]

theorem handle_of_ok {x : Process σ ε α} {handler : ε → Process σ ε α} {s t : σ} {a : α}
    (h : x s = (.ok a, t)) : x.handle handler s = (.ok a, t) := by
  rw [handle, h]

theorem handle_of_error {x : Process σ ε α} {handler : ε → Process σ ε α} {s t : σ} {e : ε}
    (h : x s = (.error e, t)) : x.handle handler s = handler e t := by
  rw [handle, h]

theorem bind_of_error {β : Type} {x : Process σ ε α} {f : α → Process σ ε β} {s t : σ} {e : ε}
    (h : x s = (.error e, t)) : (x >>= f) s = (.error e, t) := by
  rw [bind_eq, h]

/-- `for a in l: f(a)`. -/
def each (f : α → Process σ ε Unit) : List α → Process σ ε Unit
  | [] => pure ()
  | a :: l => f a >>= fun _ => each f l

/-- A loop that skips what `p` does not hold of runs over the rest. -/
theorem each_ite {p : α → Prop} [DecidablePred p] {f : α → Process σ ε Unit} (l : List α) :
    each (fun a => if p a then f a else pure ()) l = each f (l.filter fun a => decide (p a)) := by
  induction l with
  | nil => rfl
  | cons a l ih =>
    rw [each, ih]
    by_cases h : p a
    · have hcons : (a :: l).filter (fun a => decide (p a)) =
          a :: l.filter fun a => decide (p a) := by simp [h]
      rw [if_pos h, hcons, each]
    · have hcons : (a :: l).filter (fun a => decide (p a)) =
          l.filter fun a => decide (p a) := by simp [h]
      rw [if_neg h, hcons]
      rfl

theorem each_append_of_ok {f : α → Process σ ε Unit} {l l' : List α} {s t : σ}
    (h : each f l s = (.ok (), t)) : each f (l ++ l') s = each f l' t := by
  induction l generalizing s with
  | nil =>
    obtain rfl : s = t := (Prod.mk.inj h).2
    rfl
  | cons a l ih =>
    rw [each, bind_eq_ok] at h
    obtain ⟨_, u, ha, hl⟩ := h
    rw [List.cons_append, each, bind_of_ok ha, ih hl]

end Process

-- ═══════════════════════════════════════════════════════════════════
-- Engine and connection
-- ═══════════════════════════════════════════════════════════════════

/-- An error of a call, and whether it ends the transaction under way. -/
structure SqlFault (ε : Type) where
  error : ε
  rollsBack : Bool

/-- The statements that begin or end a transaction. -/
inductive Control
  | begin
  | commit
  | rollback

/-- What statements do to a database. `faults` are failures from outside, by the number
    of calls before. -/
structure SqlEngine (σ ε : Type) where
  control : String → Option Control
  effect : String → σ → Except (SqlFault ε) σ
  commits : σ → Except (SqlFault ε) Unit
  faults : ℕ → Option (SqlFault ε)
  noTransaction : ε
  nestedTransaction : ε

/-- The database that others see, and the one of the transaction under way. -/
structure Connection (σ : Type) where
  committed : σ
  working : Option σ
  calls : ℕ

namespace Connection

variable {σ ε : Type}

/-- A change of the data, committed at once outside a transaction. -/
def change (f : σ → Except (SqlFault ε) σ) (c : Connection σ) :
    Except (SqlFault ε) (Connection σ) :=
  match c.working with
  | some s => (f s).map fun s' => { c with working := some s' }
  | none => (f c.committed).map fun s' => { c with committed := s' }

/-- The start of a transaction. -/
def start (nested : ε) (c : Connection σ) : Except (SqlFault ε) (Connection σ) :=
  match c.working with
  | some _ => .error ⟨nested, false⟩
  | none => .ok { c with working := some c.committed }

/-- The end of a transaction, whose changes are checked once more. -/
def finish (outside : ε) (commits : σ → Except (SqlFault ε) Unit) (c : Connection σ) :
    Except (SqlFault ε) (Connection σ) :=
  match c.working with
  | none => .error ⟨outside, false⟩
  | some s => (commits s).map fun _ => { c with committed := s, working := none }

theorem change_of_open {f : σ → Except (SqlFault ε) σ} {c : Connection σ} {s : σ}
    (h : c.working = some s) :
    c.change f = (f s).map fun s' => { c with working := some s' } := by
  rw [change, h]

end Connection

namespace SqlEngine

variable {σ ε : Type} (db : SqlEngine σ ε)

/-- One call; nothing of a call that fails is kept. -/
def call (f : Connection σ → Except (SqlFault ε) (Connection σ)) : Process (Connection σ) ε Unit :=
  fun c =>
    match (db.faults c.calls).elim (f c) .error with
    | .ok t => (.ok (), { t with calls := c.calls + 1 })
    | .error fault => (.error fault.error,
        { c with calls := c.calls + 1, working := if fault.rollsBack then none else c.working })

def write (f : σ → Except (SqlFault ε) σ) : Process (Connection σ) ε Unit :=
  db.call (Connection.change f)

/-- A statement that reads. -/
def query {α : Type} (f : σ → α) : Process (Connection σ) ε α := do
  db.write .ok
  Process.read fun c => f (c.working.getD c.committed)

def begin : Process (Connection σ) ε Unit := db.call (Connection.start db.nestedTransaction)

def commit : Process (Connection σ) ε Unit :=
  db.call (Connection.finish db.noTransaction db.commits)

/-- A rollback fails only where there is no transaction. -/
def rollback : Process (Connection σ) ε Unit := fun c =>
  match c.working with
  | none => (.error db.noTransaction, { c with calls := c.calls + 1 })
  | some _ => (.ok (), { c with calls := c.calls + 1, working := none })

/-- Any statement. -/
def execute (statement : String) : Process (Connection σ) ε Unit :=
  match db.control statement with
  | none => db.write (db.effect statement)
  | some .begin => db.begin
  | some .commit => db.commit
  | some .rollback => db.rollback

variable {db}

-- ═══════════════════════════════════════════════════════════════════
-- One call
-- ═══════════════════════════════════════════════════════════════════

theorem call_cases (f : Connection σ → Except (SqlFault ε) (Connection σ)) (c : Connection σ) :
    (∃ t, f c = .ok t ∧ db.call f c = (.ok (), { t with calls := c.calls + 1 })) ∨
    ∃ fault : SqlFault ε, db.call f c = (.error fault.error,
      { c with
        calls := c.calls + 1
        working := if fault.rollsBack then none else c.working }) := by
  simp only [call]
  split
  · rename_i t h
    refine .inl ⟨t, ?_, rfl⟩
    cases hfault : db.faults c.calls with
    | none => simpa [hfault] using h
    | some fault => simp [hfault] at h
  · rename_i fault h
    exact .inr ⟨fault, rfl⟩

theorem call_of_ok (hfaults : ∀ n, db.faults n = none)
    {f : Connection σ → Except (SqlFault ε) (Connection σ)} {c t : Connection σ} (h : f c = .ok t) :
    db.call f c = (.ok (), { t with calls := c.calls + 1 }) := by
  simp only [call, hfaults, Option.elim_none, h]

/-- A write in a transaction changes the transaction, or fails and commits nothing. -/
theorem write_cases (f : σ → Except (SqlFault ε) σ) {c : Connection σ} {s : σ}
    (hopen : c.working = some s) :
    (∃ s', f s = .ok s' ∧ db.write f c = (.ok (), ⟨c.committed, some s', c.calls + 1⟩)) ∨
    ∃ e t, db.write f c = (.error e, t) ∧ t.committed = c.committed := by
  obtain ⟨t, ht, hcall⟩ | ⟨fault, hcall⟩ := @call_cases σ ε db (Connection.change f) c
  · rw [Connection.change_of_open hopen] at ht
    cases hs' : f s with
    | error fault =>
      rw [hs'] at ht
      exact absurd ht (by simp [Except.map])
    | ok s' =>
      rw [hs'] at ht
      obtain rfl := Except.ok.inj ht
      exact .inl ⟨s', rfl, hcall⟩
  · exact .inr ⟨_, _, hcall, rfl⟩

theorem write_of_ok (hfaults : ∀ n, db.faults n = none) {f : σ → Except (SqlFault ε) σ}
    {c : Connection σ} {s s' : σ} (hopen : c.working = some s) (h : f s = .ok s') :
    db.write f c = (.ok (), ⟨c.committed, some s', c.calls + 1⟩) := by
  refine (call_of_ok (t := { c with working := some s' }) hfaults ?_).trans rfl
  rw [Connection.change_of_open hopen, h]
  rfl

/-- Outside a transaction, a write that changes nothing returns or fails. -/
theorem touch_cases {c : Connection σ} (hclosed : c.working = none) :
    db.write .ok c = (.ok (), ⟨c.committed, none, c.calls + 1⟩) ∨
    ∃ e, db.write .ok c = (.error e, ⟨c.committed, none, c.calls + 1⟩) := by
  obtain ⟨t, ht, hcall⟩ | ⟨fault, hcall⟩ := @call_cases σ ε db (Connection.change .ok) c
  · simp only [Connection.change, hclosed, Except.map, Except.ok.injEq] at ht
    subst ht
    refine .inl (hcall.trans ?_)
    rw [← hclosed]
  · refine .inr ⟨fault.error, hcall.trans ?_⟩
    simp only [hclosed, ite_self]

theorem touch_of_closed (hfaults : ∀ n, db.faults n = none) {c : Connection σ}
    (hclosed : c.working = none) :
    db.write .ok c = (.ok (), ⟨c.committed, none, c.calls + 1⟩) := by
  have hchange : c.change .ok = .ok (ε := SqlFault ε) c := by
    simp only [Connection.change, hclosed, Except.map]
    rw [← hclosed]
  refine (call_of_ok hfaults hchange).trans ?_
  rw [hclosed]

/-- A query outside a transaction reads what is committed. -/
theorem query_of_touch {α : Type} (f : σ → α) {c : Connection σ}
    (h : db.write .ok c = (.ok (), ⟨c.committed, none, c.calls + 1⟩)) :
    db.query f c = (.ok (f c.committed), ⟨c.committed, none, c.calls + 1⟩) := by
  rw [query, Process.bind_of_ok h, Process.read, Option.getD_none]

/-- A transaction starts from what is committed. -/
theorem begin_cases {c : Connection σ} (hclosed : c.working = none) :
    db.begin c = (.ok (), ⟨c.committed, some c.committed, c.calls + 1⟩) ∨
    ∃ e, db.begin c = (.error e, ⟨c.committed, none, c.calls + 1⟩) := by
  obtain ⟨t, ht, hcall⟩ | ⟨fault, hcall⟩ := @call_cases σ ε db (Connection.start db.nestedTransaction) c
  · rw [Connection.start, hclosed] at ht
    obtain rfl := Except.ok.inj ht
    exact .inl hcall
  · refine .inr ⟨fault.error, hcall.trans ?_⟩
    simp only [hclosed, ite_self]

theorem begin_of_closed (hfaults : ∀ n, db.faults n = none) {c : Connection σ}
    (hclosed : c.working = none) :
    db.begin c = (.ok (), ⟨c.committed, some c.committed, c.calls + 1⟩) := by
  have hstart : c.start db.nestedTransaction = .ok { c with working := some c.committed } := by
    rw [Connection.start, hclosed]
  exact call_of_ok hfaults hstart

/-- A commit puts the transaction in place, or fails and commits nothing. -/
theorem commit_cases {c : Connection σ} {s : σ} (hopen : c.working = some s) :
    (db.commits s = .ok () ∧ db.commit c = (.ok (), ⟨s, none, c.calls + 1⟩)) ∨
    ∃ e t, db.commit c = (.error e, t) ∧ t.committed = c.committed := by
  obtain ⟨t, ht, hcall⟩ | ⟨fault, hcall⟩ :=
    @call_cases σ ε db (Connection.finish db.noTransaction db.commits) c
  · simp only [Connection.finish, hopen] at ht
    cases hs : db.commits s with
    | error fault =>
      rw [hs] at ht
      exact absurd ht (by simp [Except.map])
    | ok _ =>
      rw [hs] at ht
      obtain rfl := Except.ok.inj ht
      exact .inl ⟨rfl, hcall⟩
  · exact .inr ⟨_, _, hcall, rfl⟩

theorem commit_of_ok (hfaults : ∀ n, db.faults n = none) {c : Connection σ} {s : σ}
    (hopen : c.working = some s) (h : db.commits s = .ok ()) :
    db.commit c = (.ok (), ⟨s, none, c.calls + 1⟩) := by
  have hfinish : c.finish db.noTransaction db.commits =
      .ok { c with committed := s, working := none } := by
    simp only [Connection.finish, hopen, h, Except.map]
  exact call_of_ok hfaults hfinish

/-- After a rollback, returned or failed, there is no transaction. -/
theorem rollback_snd (c : Connection σ) :
    (db.rollback c).2 = ⟨c.committed, none, c.calls + 1⟩ := by
  simp only [rollback]
  split
  · rename_i h
    rw [← h]
  · rfl

-- ═══════════════════════════════════════════════════════════════════
-- Scripts
-- ═══════════════════════════════════════════════════════════════════

/-- A statement of data only: it does not touch the transaction. -/
def IsPlain (db : SqlEngine σ ε) (statement : String) : Prop := db.control statement = none

/-- What the statements of a script do to the data, one after the other. -/
def script (db : SqlEngine σ ε) (statements : List String) (s : σ) : Except (SqlFault ε) σ :=
  statements.foldlM (fun s statement => db.effect statement s) s

theorem script_cons {x : String} {statements : List String} {s t : σ} :
    db.script (x :: statements) s = .ok t ↔
      ∃ s₁, db.effect x s = .ok s₁ ∧ db.script statements s₁ = .ok t := by
  rw [script, List.foldlM_cons]
  cases db.effect x s <;> simp [bind, Except.bind, script]

/-- A script of plain statements in a transaction changes the transaction as its
    statements do, or fails; it commits nothing. -/
theorem each_execute_cases {statements : List String} (hplain : ∀ x ∈ statements, db.IsPlain x)
    {c : Connection σ} {s : σ} (hopen : c.working = some s) :
    (∃ s' n, db.script statements s = .ok s' ∧
      Process.each db.execute statements c = (.ok (), ⟨c.committed, some s', n⟩)) ∨
    ∃ e t, Process.each db.execute statements c = (.error e, t) ∧ t.committed = c.committed := by
  induction statements generalizing c s with
  | nil =>
    refine .inl ⟨s, c.calls, rfl, ?_⟩
    rw [← hopen]
    rfl
  | cons x statements ih =>
    have hx : db.execute x = db.write (db.effect x) := by
      rw [execute, hplain x List.mem_cons_self]
    have hrest : ∀ y ∈ statements, db.IsPlain y := fun y hy => hplain y (List.mem_cons_of_mem x hy)
    rw [Process.each, hx]
    obtain ⟨s₁, hs₁, hwrite⟩ | ⟨e, t, hwrite, ht⟩ := @write_cases σ ε db (db.effect x) c s hopen
    · rw [Process.bind_of_ok hwrite]
      have hscript : db.script (x :: statements) s = db.script statements s₁ := by
        rw [script, List.foldlM_cons, hs₁]
        rfl
      obtain ⟨s', n, hs', hdone⟩ | ⟨e, t, hfail, ht⟩ :=
        ih hrest (c := ⟨c.committed, some s₁, c.calls + 1⟩) rfl
      · exact .inl ⟨s', n, hscript.trans hs', hdone⟩
      · exact .inr ⟨e, t, hfail, ht⟩
    · exact .inr ⟨e, t, Process.bind_of_error hwrite, ht⟩

/-- What no statement of a script changes stays. -/
theorem script_keeps {α : Type} (f : σ → α) {statements : List String} {s t : σ}
    (hkeeps : ∀ x ∈ statements, ∀ s t, db.effect x s = .ok t → f t = f s)
    (h : db.script statements s = .ok t) : f t = f s := by
  induction statements generalizing s with
  | nil =>
    obtain rfl : s = t := Except.ok.inj h
    rfl
  | cons x statements ih =>
    obtain ⟨s₁, hs₁, hrest⟩ := script_cons.mp h
    rw [ih (fun y hy => hkeeps y (List.mem_cons_of_mem x hy)) hrest]
    exact hkeeps x List.mem_cons_self s s₁ hs₁

/-- Without outside faults, a script does what its statements do. -/
theorem each_execute_of_ok (hfaults : ∀ n, db.faults n = none) {statements : List String}
    (hplain : ∀ x ∈ statements, db.IsPlain x) {c : Connection σ} {s s' : σ}
    (hopen : c.working = some s) (h : db.script statements s = .ok s') :
    ∃ n, Process.each db.execute statements c = (.ok (), ⟨c.committed, some s', n⟩) := by
  induction statements generalizing c s with
  | nil =>
    refine ⟨c.calls, ?_⟩
    obtain rfl : s = s' := Except.ok.inj h
    rw [← hopen]
    rfl
  | cons x statements ih =>
    have hx : db.execute x = db.write (db.effect x) := by
      rw [execute, hplain x List.mem_cons_self]
    obtain ⟨s₁, hs₁, hrest⟩ := script_cons.mp h
    rw [Process.each, hx, Process.bind_of_ok (write_of_ok hfaults hopen hs₁)]
    exact ih (fun y hy => hplain y (List.mem_cons_of_mem x hy)) rfl hrest

end SqlEngine
