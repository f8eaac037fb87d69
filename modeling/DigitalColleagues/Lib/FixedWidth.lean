import Mathlib.Data.Nat.Digits.Defs
import Mathlib.Data.List.Lex
import Mathlib.Data.String.Basic
import Mathlib.Order.Basic
import Mathlib.Tactic.Common

/-!
# Numerals of a fixed width

Zero-padded decimal numerals and records of them. A record is laid out in
columns, each a numeral of its own width with the text that follows it. Texts of
one layout compare as their rows of numbers do, and reading a text gives back
the row it was written from.
-/

namespace FixedWidth

-- ════════════════════════════════════════════════════════════════════════
-- Lexicographic order
-- ════════════════════════════════════════════════════════════════════════

section Order

variable {α : Type*} [LinearOrder α]

/-- Lists with heads of one length compare by the heads first. -/
theorem append_lt_append_iff {a c : List α} (h : a.length = c.length) (b d : List α) :
    a ++ b < c ++ d ↔ a < c ∨ a = c ∧ b < d := by
  induction a generalizing c with
  | nil =>
    obtain rfl : c = [] := List.length_eq_zero_iff.mp h.symm
    simp
  | cons x a ih =>
    cases c with
    | nil => simp at h
    | cons y c =>
      have hlen : a.length = c.length := by simpa using h
      simp only [List.cons_append, List.cons_lt_cons_iff, ih hlen, List.cons.injEq]
      tauto

theorem append_right_lt_iff {a c : List α} (h : a.length = c.length) (b : List α) :
    a ++ b < c ++ b ↔ a < c := by
  rw [append_lt_append_iff h]
  simp

theorem append_left_lt_iff (a b d : List α) : a ++ b < a ++ d ↔ b < d := by
  rw [append_lt_append_iff rfl]
  simp

end Order

-- ════════════════════════════════════════════════════════════════════════
-- Numerals
-- ════════════════════════════════════════════════════════════════════════

/-- The digit of a number below ten. -/
def digit (d : ℕ) : Char := Char.ofNat (48 + d)

/-- The numeral of `n` in `width` digits, the most significant first. -/
def pad : (width : ℕ) → (n : ℕ) → List Char
  | 0, _ => []
  | w + 1, n => digit (n / 10 ^ w) :: pad w (n % 10 ^ w)

/-- The number that the first `width` digits denote, and the text after them. -/
def readPad : (width : ℕ) → List Char → Option (ℕ × List Char)
  | 0, text => some (0, text)
  | _ + 1, [] => none
  | w + 1, c :: text =>
    if c.isDigit then (readPad w text).map fun (n, rest) => ((c.toNat - 48) * 10 ^ w + n, rest)
    else none

theorem isDigit_digit : ∀ d < 10, (digit d).isDigit = true := by decide

theorem toNat_digit : ∀ d < 10, (digit d).toNat = 48 + d := by decide

theorem digit_lt_iff {d e : ℕ} (hd : d < 10) (he : e < 10) : digit d < digit e ↔ d < e := by
  rw [Char.lt_def, UInt32.lt_iff_toNat_lt]
  show (digit d).toNat < (digit e).toNat ↔ d < e
  rw [toNat_digit d hd, toNat_digit e he]
  omega

theorem digit_inj {d e : ℕ} (hd : d < 10) (he : e < 10) : digit d = digit e ↔ d = e := by
  refine ⟨fun h => ?_, fun h => by rw [h]⟩
  have hnat : (digit d).toNat = (digit e).toNat := by rw [h]
  rw [toNat_digit d hd, toNat_digit e he] at hnat
  omega

@[simp] theorem length_pad (w n : ℕ) : (pad w n).length = w := by
  induction w generalizing n with
  | zero => rfl
  | succ w ih => simp [pad, ih]

theorem div_pow_lt_ten {w n : ℕ} (h : n < 10 ^ (w + 1)) : n / 10 ^ w < 10 := by
  rw [Nat.div_lt_iff_lt_mul (by positivity)]
  rw [pow_succ'] at h
  exact h

theorem mod_pow_lt (w n : ℕ) : n % 10 ^ w < 10 ^ w := Nat.mod_lt _ (by positivity)

/-- Numbers compare by their leading digit, then by what it leaves. -/
theorem lt_iff_div_mod {n m k : ℕ} :
    n < m ↔ n / k < m / k ∨ n / k = m / k ∧ n % k < m % k := by
  have hn := Nat.div_add_mod n k
  have hm := Nat.div_add_mod m k
  refine ⟨fun h => ?_, ?_⟩
  · obtain hlt | heq := Nat.lt_or_eq_of_le (Nat.div_le_div_right (c := k) h.le)
    · exact .inl hlt
    · refine .inr ⟨heq, ?_⟩
      rw [heq] at hn
      omega
  · rintro (hlt | ⟨heq, hlt⟩)
    · by_contra hle
      exact absurd (Nat.div_le_div_right (c := k) (not_lt.mp hle)) (not_le.mpr hlt)
    · rw [heq] at hn
      omega

/-- Numerals of one width compare as their numbers. -/
theorem pad_lt_iff {w n m : ℕ} (hn : n < 10 ^ w) (hm : m < 10 ^ w) :
    pad w n < pad w m ↔ n < m := by
  induction w generalizing n m with
  | zero => simp_all [pad]
  | succ w ih =>
    rw [pad, pad, List.cons_lt_cons_iff, ih (mod_pow_lt w n) (mod_pow_lt w m),
      digit_lt_iff (div_pow_lt_ten hn) (div_pow_lt_ten hm),
      digit_inj (div_pow_lt_ten hn) (div_pow_lt_ten hm)]
    exact lt_iff_div_mod.symm

theorem pad_inj {w n m : ℕ} (hn : n < 10 ^ w) (hm : m < 10 ^ w) : pad w n = pad w m ↔ n = m := by
  refine ⟨fun h => ?_, fun h => by rw [h]⟩
  have hlt := (pad_lt_iff hn hm).not.mp (h ▸ lt_irrefl _)
  have hgt := (pad_lt_iff hm hn).not.mp (h ▸ lt_irrefl _)
  omega

/-- Reading a numeral gives its number and leaves what follows it. -/
theorem readPad_pad {w n : ℕ} (h : n < 10 ^ w) (rest : List Char) :
    readPad w (pad w n ++ rest) = some (n, rest) := by
  induction w generalizing n with
  | zero =>
    obtain rfl : n = 0 := by simpa using h
    rfl
  | succ w ih =>
    have hd := div_pow_lt_ten h
    have hval : ((digit (n / 10 ^ w)).toNat - 48) * 10 ^ w + n % 10 ^ w = n := by
      rw [toNat_digit _ hd, Nat.add_sub_cancel_left, Nat.mul_comm, Nat.div_add_mod]
    rw [pad, List.cons_append, readPad, if_pos (isDigit_digit _ hd), ih (mod_pow_lt w n)]
    simp only [Option.map_some, hval]

-- ════════════════════════════════════════════════════════════════════════
-- Records
-- ════════════════════════════════════════════════════════════════════════

/-- A column: the width of its numeral and the text after it. -/
structure Column where
  width : ℕ
  after : List Char

/-- The text of a row of numbers. -/
def write : List Column → List ℕ → List Char
  | c :: layout, n :: row => pad c.width n ++ (c.after ++ write layout row)
  | _, _ => []

/-- The row that a text of the layout was written from, and the text after it. -/
def read : List Column → List Char → Option (List ℕ × List Char)
  | [], text => some ([], text)
  | c :: layout, text =>
    match readPad c.width text with
    | none => none
    | some (n, rest) =>
      if c.after <+: rest then
        (read layout (rest.drop c.after.length)).map fun (row, rest) => (n :: row, rest)
      else none

/-- One number for each column, none wider than its column. -/
def Fits (layout : List Column) (row : List ℕ) : Prop :=
  List.Forall₂ (fun c n => n < 10 ^ c.width) layout row

/-- All texts of a layout have one length. -/
theorem length_write {layout : List Column} {row : List ℕ} (h : Fits layout row) :
    (write layout row).length = (layout.map fun c => c.width + c.after.length).sum := by
  induction h with
  | nil => rfl
  | cons _ _ ih => simp [write, ih, Nat.add_assoc]

/-- Texts of one layout compare as their rows. -/
theorem write_lt_write_iff {layout : List Column} {row row' : List ℕ} (h : Fits layout row)
    (h' : Fits layout row') : write layout row < write layout row' ↔ row < row' := by
  induction h generalizing row' with
  | nil =>
    cases h'
    simp [write]
  | @cons c n _ _ hn hrow ih =>
    cases h' with
    | @cons _ m _ _ hm hrow' =>
      have hlen : (pad c.width n).length = (pad c.width m).length :=
        (length_pad _ _).trans (length_pad _ _).symm
      rw [write, write, append_lt_append_iff hlen, pad_lt_iff hn hm, pad_inj hn hm,
        append_left_lt_iff, ih hrow', List.cons_lt_cons_iff]

/-- Reading a text of the layout gives the row it was written from. -/
theorem read_write {layout : List Column} {row : List ℕ} (h : Fits layout row)
    (rest : List Char) : read layout (write layout row ++ rest) = some (row, rest) := by
  induction h with
  | nil => rfl
  | cons hn _ ih =>
    rw [write, read, List.append_assoc, readPad_pad hn, List.append_assoc]
    simp [ih]

end FixedWidth
