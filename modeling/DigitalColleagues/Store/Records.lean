import DigitalColleagues.Core.Authority
import DigitalColleagues.Core.Runtime
import DigitalColleagues.Lib.Table

/-!
# Durable records and their audit rows

`domain_records` and `audit_records`, one pair of tables for each record type.
Every accepted write leaves exactly one audit row for the new revision, and the
pair of tables carries that as an invariant.
-/

namespace DigitalColleagues

/-- A registered durable record type: identity, mutability, revision and the
    public projection its audit rows keep. -/
class DurableRecord (ρ : Type) extends Keyed ρ StableId where
  immutable : Bool
  revision : ρ → ℕ
  Public : Type
  publicData : ρ → Public

/-- One audit row; its `audit_id` is a function of the record and the revision. -/
structure AuditRecord (ρ : Type) [DurableRecord ρ] where
  recordId : StableId
  recordRevision : ℕ
  safeProjection : DurableRecord.Public ρ

open DurableRecord Keyed

variable {ρ : Type} [DurableRecord ρ]

instance : Keyed (AuditRecord ρ) (StableId × ℕ) where
  key a := (a.recordId, a.recordRevision)

def auditRecord (r : ρ) : AuditRecord ρ := ⟨key r, revision r, publicData r⟩

@[simp] theorem key_auditRecord (r : ρ) : key (auditRecord r) = (key r, revision r) := rfl

/-- The durable records of one type: every current revision is audited, and no
    audit row is ahead of its record. -/
structure Records (ρ : Type) [DurableRecord ρ] where
  domain : Table ρ
  audit : Table (AuditRecord ρ)
  audited : ∀ r ∈ domain, audit.find? (key r, revision r) = some (auditRecord r)
  bounded : ∀ a ∈ audit, ∃ r ∈ domain, key r = a.recordId ∧ a.recordRevision ≤ revision r

namespace Records

def empty : Records ρ := ⟨.empty, .empty, by simp, by simp⟩

def find? (rs : Records ρ) (id : StableId) : Option ρ := rs.domain.find? id

@[simp] theorem find?_empty (id : StableId) : (empty : Records ρ).find? id = none := rfl

def getRecord (rs : Records ρ) (id : StableId) : Outcome ρ :=
  orFail (rs.find? id) (.notFound "namespaced durable record was not found")

@[simp] theorem getRecord_eq_ok {rs : Records ρ} {id : StableId} {r : ρ} :
    rs.getRecord id = .ok r ↔ rs.find? id = some r :=
  orFail_eq_ok

theorem key_of_find? {rs : Records ρ} {id : StableId} {r : ρ} (h : rs.find? id = some r) :
    key r = id :=
  Table.key_of_find? h

/-- The audit row of the highest revision of a record. -/
def latestAudit (rs : Records ρ) (id : StableId) : Option (AuditRecord ρ) :=
  (rs.audit.rows.filter fun a => decide (a.recordId = id)).argmax AuditRecord.recordRevision

/-- The latest audit row of a record is the one of its current revision. -/
theorem latestAudit_eq {rs : Records ρ} {id : StableId} {r : ρ} (h : rs.find? id = some r) :
    rs.latestAudit id = some (auditRecord r) := by
  have hr : r ∈ rs.domain := Table.mem_of_find? h
  have hk : key r = id := Table.key_of_find? h
  have ha : auditRecord r ∈ rs.audit := Table.mem_of_find? (rs.audited r hr)
  have hmem : auditRecord r ∈ rs.audit.rows.filter fun a => decide (a.recordId = id) := by
    simp only [List.mem_filter, decide_eq_true_eq]
    exact ⟨ha, hk⟩
  cases hl : rs.latestAudit id with
  | none =>
    rw [latestAudit, List.argmax_eq_none] at hl
    rw [hl] at hmem
    simp at hmem
  | some b =>
    have hb := List.argmax_mem hl
    simp only [List.mem_filter, decide_eq_true_eq] at hb
    have hle : revision r ≤ b.recordRevision := List.le_of_mem_argmax hmem hl
    obtain ⟨r', hr', hk', hle'⟩ := rs.bounded b hb.1
    have hrr : r' = r := Table.eq_of_key_eq hr' hr (by rw [hk', hb.2, hk])
    subst hrr
    have hba : b = auditRecord r' := by
      apply Table.eq_of_key_eq (t := rs.audit) hb.1 ha
      simp only [key, auditRecord, Prod.mk.injEq]
      exact ⟨hk'.symm, le_antisymm hle' hle⟩
    rw [hba]

-- ════════════════════════════════════════════════════════════════════════
-- Insert
-- ════════════════════════════════════════════════════════════════════════

def identityConflict : Failure :=
  .conflict "durable record identity or constraint conflict"

/-- `_insert_record`: the record and the audit row of its revision. -/
def insertRecord (rs : Records ρ) (r : ρ) : Outcome (Records ρ) :=
  match hd : rs.domain.insert? r with
  | none => .error identityConflict
  | some domain =>
    match ha : rs.audit.insert? (auditRecord r) with
    | none => .error identityConflict
    | some audit => .ok {
        domain := domain
        audit := audit
        audited := by
          intro x hx
          rcases (Table.mem_insert hd).mp hx with hx | rfl
          · exact Table.find?_insert_of_some ha (rs.audited x hx)
          · rw [Table.find?_insert ha, if_pos (key_auditRecord x).symm]
        bounded := by
          intro a hx
          rcases (Table.mem_insert ha).mp hx with hx | rfl
          · obtain ⟨x, hx, hk⟩ := rs.bounded a hx
            exact ⟨x, (Table.mem_insert hd).mpr (.inl hx), hk⟩
          · exact ⟨r, (Table.mem_insert hd).mpr (.inr rfl), rfl, le_rfl⟩ }

theorem insert?_of_insertRecord {rs rs' : Records ρ} {r : ρ} (h : rs.insertRecord r = .ok rs') :
    rs.domain.insert? r = some rs'.domain := by
  unfold insertRecord at h
  split at h
  · exact absurd h (by simp)
  · rename_i domain hd
    split at h
    · exact absurd h (by simp)
    · obtain rfl := Except.ok.inj h
      exact hd

theorem find?_of_insertRecord {rs rs' : Records ρ} {r : ρ} (h : rs.insertRecord r = .ok rs') :
    rs.find? (key r) = none :=
  (Table.insert?_eq_some.mp (insert?_of_insertRecord h)).1

theorem find?_insertRecord {rs rs' : Records ρ} {r : ρ} (h : rs.insertRecord r = .ok rs')
    (id : StableId) : rs'.find? id = if id = key r then some r else rs.find? id :=
  Table.find?_insert (insert?_of_insertRecord h) id

theorem find?_insertRecord_self {rs rs' : Records ρ} {r : ρ} (h : rs.insertRecord r = .ok rs') :
    rs'.find? (key r) = some r := by
  rw [find?_insertRecord h, if_pos rfl]

/-- An insert changes no record that was there. -/
theorem find?_insertRecord_of_some {rs rs' : Records ρ} {r x : ρ} {id : StableId}
    (h : rs.insertRecord r = .ok rs') (hx : rs.find? id = some x) : rs'.find? id = some x :=
  Table.find?_insert_of_some (insert?_of_insertRecord h) hx

/-- A record with a fresh identifier can be inserted. -/
theorem exists_insertRecord {rs : Records ρ} {r : ρ} (h : rs.find? (key r) = none) :
    ∃ rs', rs.insertRecord r = .ok rs' := by
  have hdomain : rs.domain.insert? r ≠ none := by
    rw [ne_eq, Table.insert?_eq_none, not_exists]
    intro x hx
    exact absurd (h.symm.trans hx) (by simp)
  have haudit : rs.audit.insert? (auditRecord r) ≠ none := by
    rw [ne_eq, Table.insert?_eq_none, not_exists]
    intro a ha
    obtain ⟨x, hx, hk, _⟩ := rs.bounded a (Table.mem_of_find? ha)
    have hid : a.recordId = key r := congrArg Prod.fst (Table.key_of_find? ha)
    exact Table.find?_eq_none.mp h x hx (hk.trans hid)
  unfold insertRecord
  split
  · rename_i hnone
    exact absurd hnone hdomain
  · split
    · rename_i hnone
      exact absurd hnone haudit
    · exact ⟨_, rfl⟩

-- ════════════════════════════════════════════════════════════════════════
-- Update
-- ════════════════════════════════════════════════════════════════════════

/-- `_update_record`: the next revision of a mutable record that is still at
    the expected one, with its audit row. -/
def updateRecord (rs : Records ρ) (r : ρ) (expectedRevision : ℕ) : Outcome (Records ρ) :=
  if immutable ρ then
    .error (.persistence "immutable causal records cannot be updated")
  else if hrev : revision r = expectedRevision + 1 then
    match hd : rs.domain.find? (key r) with
    | none => .error (.conflict "optimistic record revision conflict")
    | some old =>
      if hold : revision old = expectedRevision then
        match ha : rs.audit.insert? (auditRecord r) with
        | none => .error .integrity
        | some audit => .ok {
            domain := rs.domain.replace r
            audit := audit
            audited := by
              intro x hx
              rcases (Table.mem_replace hd).mp hx with rfl | ⟨hx, _⟩
              · rw [Table.find?_insert ha, if_pos (key_auditRecord x).symm]
              · exact Table.find?_insert_of_some ha (rs.audited x hx)
            bounded := by
              intro a hx
              rcases (Table.mem_insert ha).mp hx with hx | rfl
              · obtain ⟨x, hx, hk, hle⟩ := rs.bounded a hx
                by_cases hxr : key x = key r
                · have hxo : x = old := Table.eq_of_key_eq hx (Table.mem_of_find? hd)
                    (hxr.trans (Table.key_of_find? hd).symm)
                  refine ⟨r, (Table.mem_replace hd).mpr (.inl rfl), hxr.symm.trans hk, ?_⟩
                  rw [hxo] at hle
                  omega
                · exact ⟨x, (Table.mem_replace hd).mpr (.inr ⟨hx, hxr⟩), hk, hle⟩
              · exact ⟨r, (Table.mem_replace hd).mpr (.inl rfl), rfl, le_rfl⟩ }
      else .error (.conflict "optimistic record revision conflict")
  else .error (.conflict "record revision did not advance exactly once")

theorem updateRecord_eq_ok {rs rs' : Records ρ} {r : ρ} {n : ℕ}
    (h : rs.updateRecord r n = .ok rs') :
    revision r = n + 1 ∧ (∃ old, rs.find? (key r) = some old ∧ revision old = n) ∧
      rs'.domain = rs.domain.replace r := by
  unfold updateRecord at h
  split at h
  · exact absurd h (by simp)
  split at h
  · rename_i hrev
    split at h
    · exact absurd h (by simp)
    · rename_i old hold
      split at h
      · rename_i hn
        split at h
        · exact absurd h (by simp)
        · obtain rfl := Except.ok.inj h
          exact ⟨hrev, ⟨old, hold, hn⟩, rfl⟩
      · exact absurd h (by simp)
  · exact absurd h (by simp)

/-- A mutable record can be written over at its next revision. -/
theorem exists_updateRecord {rs : Records ρ} {r old : ρ} (hmutable : immutable ρ = false)
    (hold : rs.find? (key r) = some old) (hrev : revision r = revision old + 1) :
    ∃ rs', rs.updateRecord r (revision old) = .ok rs' := by
  have haudit : rs.audit.insert? (auditRecord r) ≠ none := by
    rw [ne_eq, Table.insert?_eq_none, not_exists]
    intro a ha
    obtain ⟨x, hx, hk, hle⟩ := rs.bounded a (Table.mem_of_find? ha)
    have hid : a.recordId = key r ∧ a.recordRevision = revision r :=
      Prod.mk.inj (Table.key_of_find? ha)
    have hfind : rs.domain.find? (key r) = some old := hold
    have hxo : x = old := Table.eq_of_key_eq hx (Table.mem_of_find? hfind)
      ((hk.trans hid.1).trans (Table.key_of_find? hfind).symm)
    rw [hxo] at hle
    omega
  unfold updateRecord
  rw [if_neg (by simp [hmutable]), dif_pos hrev]
  split
  · rename_i hnone
    exact absurd (hnone.symm.trans hold) (by simp)
  · rename_i x hx
    obtain rfl := Option.some.inj (hx.symm.trans hold)
    rw [dif_pos rfl]
    split
    · rename_i hnone
      exact absurd hnone haudit
    · exact ⟨_, rfl⟩

/-- An insert adds one audit row. -/
theorem mem_audit_insertRecord {rs rs' : Records ρ} {r : ρ} {a : AuditRecord ρ}
    (h : rs.insertRecord r = .ok rs') : a ∈ rs'.audit ↔ a ∈ rs.audit ∨ a = auditRecord r := by
  unfold insertRecord at h
  split at h
  · exact absurd h (by simp)
  · split at h
    · exact absurd h (by simp)
    · rename_i haudit
      obtain rfl := Except.ok.inj h
      exact Table.mem_insert haudit

/-- An update adds one audit row. -/
theorem mem_audit_updateRecord {rs rs' : Records ρ} {r : ρ} {n : ℕ} {a : AuditRecord ρ}
    (h : rs.updateRecord r n = .ok rs') : a ∈ rs'.audit ↔ a ∈ rs.audit ∨ a = auditRecord r := by
  unfold updateRecord at h
  split at h
  · exact absurd h (by simp)
  split at h
  · split at h
    · exact absurd h (by simp)
    · split at h
      · split at h
        · exact absurd h (by simp)
        · rename_i haudit
          obtain rfl := Except.ok.inj h
          exact Table.mem_insert haudit
      · exact absurd h (by simp)
  · exact absurd h (by simp)

theorem auditRecord_mem {rs : Records ρ} {r : ρ} (h : r ∈ rs.domain) :
    auditRecord r ∈ rs.audit :=
  Table.mem_of_find? (rs.audited r h)

/-- A record that was stored at the revision of the current one is the current one. -/
theorem publicData_eq_of_revision {rs : Records ρ} {r x : ρ} (hr : r ∈ rs.domain)
    (hx : auditRecord x ∈ rs.audit) (hkey : key x = key r) (hrevision : revision x = revision r) :
    publicData x = publicData r := by
  have heq : auditRecord x = auditRecord r :=
    Table.eq_of_key_eq hx (auditRecord_mem hr) (Prod.ext hkey hrevision)
  exact congrArg AuditRecord.safeProjection heq

theorem find?_updateRecord {rs rs' : Records ρ} {r : ρ} {n : ℕ}
    (h : rs.updateRecord r n = .ok rs') (id : StableId) :
    rs'.find? id = if id = key r then some r else rs.find? id := by
  obtain ⟨_, ⟨old, hold, _⟩, hd⟩ := updateRecord_eq_ok h
  rw [find?, hd, Table.find?_replace]
  split
  · subst id
    have : rs.domain.find? (key r) = some old := hold
    simp [this]
  · rfl

/-- An update, seen as a rewrite of every record. -/
theorem find?_updateRecord_eq_map {rs rs' : Records ρ} {r : ρ} {n : ℕ}
    (h : rs.updateRecord r n = .ok rs') (id : StableId) :
    rs'.find? id = (rs.find? id).map fun x => if key x = key r then r else x := by
  rw [find?, (updateRecord_eq_ok h).2.2]
  exact Table.find?_replace_eq_map _ _ _

theorem find?_updateRecord_self {rs rs' : Records ρ} {r : ρ} {n : ℕ}
    (h : rs.updateRecord r n = .ok rs') : rs'.find? (key r) = some r := by
  rw [find?_updateRecord h, if_pos rfl]

theorem find?_updateRecord_of_ne {rs rs' : Records ρ} {r : ρ} {n : ℕ} {id : StableId}
    (h : rs.updateRecord r n = .ok rs') (hne : id ≠ key r) : rs'.find? id = rs.find? id := by
  rw [find?_updateRecord h, if_neg hne]

end Records

instance : DurableRecord Principal where
  key := Principal.principalId
  immutable := false
  revision := Principal.revision
  Public := Principal
  publicData := id

instance : DurableRecord Profile where
  key := Profile.profileId
  immutable := false
  revision := Profile.revision
  Public := Profile
  publicData := id

instance : DurableRecord Mandate where
  key := Mandate.mandateId
  immutable := false
  revision := Mandate.revision
  Public := Mandate
  publicData := id

end DigitalColleagues
