import Mathlib.Data.List.Infix

/-!
# Text columns

Reading a text column of a database: the `LIKE` operator of a database that
compares ASCII letters without regard to case, splitting at the last occurrence
of a separator, and joining parts that do not contain it.
-/

namespace Text

/-- A pattern character matches one character: `_` matches any, letters match
    without regard to case. -/
def matchesChar (p c : Char) : Bool := p == '_' || p.toLower == c.toLower

/-- `text LIKE pattern`. -/
def like : List Char → List Char → Bool
  | [], text => text.isEmpty
  | p :: pattern, text =>
    if p = '%' then text.tails.any (like pattern)
    else match text with
      | [] => false
      | c :: text => matchesChar p c && like pattern text

theorem like_percent (text : List Char) : like ['%'] text = true := by
  have hnil : [] ∈ text.tails := (List.mem_tails [] text).mpr List.nil_suffix
  show text.tails.any (like []) = true
  exact List.any_eq_true.mpr ⟨[], hnil, rfl⟩

theorem like_cons {p c : Char} {pattern text : List Char} (hp : p ≠ '%') :
    like (p :: pattern) (c :: text) = (matchesChar p c && like pattern text) := by
  simp only [like, if_neg hp]

/-- One character that differs keeps a text from matching. -/
theorem like_cons_of_ne {p c : Char} (hp : p ≠ '%') (hc : matchesChar p c = false)
    (pattern text : List Char) : like (p :: pattern) (c :: text) = false := by
  rw [like_cons hp, hc, Bool.false_and]

/-- A prefix without wildcards matches itself. -/
theorem like_append {common : List Char} (h : '%' ∉ common) (pattern text : List Char) :
    like (common ++ pattern) (common ++ text) = like pattern text := by
  induction common with
  | nil => rfl
  | cons c common ih =>
    obtain ⟨hc, hcommon⟩ := not_or.mp (List.mem_cons.not.mp h)
    have hself : matchesChar c c = true := by simp [matchesChar]
    rw [List.cons_append, List.cons_append, like_cons (Ne.symm hc), hself, ih hcommon,
      Bool.true_and]

/-- The text around the last separator, if there is one. -/
def rpartition (sep : Char) : List Char → Option (List Char × List Char)
  | [] => none
  | c :: text =>
    match rpartition sep text with
    | some (before, after) => some (c :: before, after)
    | none => if c = sep then some ([], text) else none

theorem rpartition_eq_none {sep : Char} {text : List Char} (h : sep ∉ text) :
    rpartition sep text = none := by
  induction text with
  | nil => rfl
  | cons c text ih =>
    obtain ⟨hc, htext⟩ := not_or.mp (List.mem_cons.not.mp h)
    simp only [rpartition, ih htext, if_neg (Ne.symm hc)]

/-- A separator that does not occur again is the last one. -/
theorem rpartition_append {sep : Char} (before : List Char) {after : List Char} (h : sep ∉ after) :
    rpartition sep (before ++ sep :: after) = some (before, after) := by
  induction before with
  | nil => simp only [List.nil_append, rpartition, rpartition_eq_none h, if_pos]
  | cons c before ih => simp only [List.cons_append, rpartition, ih]

/-- What stands in a joined text is the separator or stands in a part. -/
theorem mem_intercalate {α : Type} {sep c : α} {parts : List (List α)}
    (h : c ∈ [sep].intercalate parts) : c = sep ∨ ∃ part ∈ parts, c ∈ part := by
  induction parts with
  | nil => exact absurd h (by simp [List.intercalate])
  | cons part parts ih =>
    cases parts with
    | nil => exact .inr ⟨part, List.mem_cons_self, by simpa [List.intercalate] using h⟩
    | cons next parts =>
      rw [List.intercalate_cons_cons, List.append_assoc, List.mem_append, List.mem_append,
        List.mem_singleton] at h
      rcases h with h | h | h
      · exact .inr ⟨part, List.mem_cons_self, h⟩
      · exact .inl h
      · exact (ih h).imp_right fun ⟨p, hp, hc⟩ => ⟨p, List.mem_cons_of_mem _ hp, hc⟩

/-- Texts joined by a separator that occurs in none of them are told apart. -/
theorem intercalate_inj {sep : Char} {parts parts' : List String} (hne : parts ≠ [])
    (hne' : parts' ≠ []) (h : ∀ part ∈ parts, sep ∉ part.toList)
    (h' : ∀ part ∈ parts', sep ∉ part.toList)
    (heq : (String.singleton sep).intercalate parts = (String.singleton sep).intercalate parts') :
    parts = parts' := by
  have hlists := congrArg String.toList heq
  rw [String.toList_intercalate, String.toList_intercalate, String.toList_singleton] at hlists
  have hsplit := congrArg (List.splitOn sep) hlists
  have hfree : ∀ parts : List String, (∀ part ∈ parts, sep ∉ part.toList) →
      ∀ l ∈ parts.map String.toList, sep ∉ l := by
    intro parts hparts l hl
    obtain ⟨part, hpart, rfl⟩ := List.mem_map.mp hl
    exact hparts part hpart
  rw [List.splitOn_intercalate sep (hfree _ h) (by simpa using hne),
    List.splitOn_intercalate sep (hfree _ h') (by simpa using hne')] at hsplit
  exact List.map_injective_iff.mpr (fun _ _ => String.toList_injective) hsplit

/-- The number that a text of decimal digits stands for. -/
def decimal? (text : List Char) : Option ℕ :=
  if text ≠ [] ∧ text.all Char.isDigit = true then some (Nat.ofDigitChars 10 text 0) else none

theorem isDigit_of_mem_repr {n : ℕ} {c : Char} (h : c ∈ n.repr.toList) : c.isDigit = true := by
  rw [Nat.toList_repr] at h
  exact Nat.isDigit_of_mem_toDigits (by omega) (by omega) h

theorem not_mem_repr (n : ℕ) {c : Char} (hc : c.isDigit = false) : c ∉ n.repr.toList := by
  intro h
  exact absurd (isDigit_of_mem_repr h) (by simp [hc])

theorem decimal?_repr (n : ℕ) : decimal? n.repr.toList = some n := by
  have hne : n.repr.toList ≠ [] := by
    rw [Nat.toList_repr]
    exact Nat.toDigits_ne_nil
  have hdigits : n.repr.toList.all Char.isDigit = true :=
    List.all_eq_true.mpr fun c hc => isDigit_of_mem_repr hc
  rw [decimal?, if_pos ⟨hne, hdigits⟩, Nat.toList_repr, Nat.ofDigitChars_ten_toDigits]

end Text
