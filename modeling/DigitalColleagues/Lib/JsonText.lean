import Mathlib.Data.Fin.Basic
import Mathlib.Tactic.Common

/-!
# JSON texts

A reader and a writer of JSON. The reader hands every value it has read to a hook, so
that the caller decides what an object with repeated keys or a number without a value
becomes; the writer leaves no white space. Reading a written tree does what the hooks
do on the tree itself, their failures included.

## Main definitions

- `Hooks` — what the reader calls
- `load` — the reader
- `Tree`, `Tree.write` — trees, and their texts
- `Tree.fold` — the hooks on a tree

## Main results

- `load_write` — reading a written tree
- `Tree.write_injective` — different trees have different texts
- `load_keeps` — what every hook keeps holds of what was read
- `readValue_eq_of_le` — the fuel of the reader does not run out
-/

namespace JsonText

/-- A code point, which may be a surrogate. -/
abbrev Point := Fin 0x110000

/-- What the reader makes of the values it reads. -/
structure Hooks (V E : Type) where
  null : V
  bool : Bool → V
  int : ℤ → V
  float : List Char → V
  constant : List Char → Except E V
  str : List Point → V
  array : List V → V
  object : List (List Point × V) → Except E V
  invalid : E

-- ════════════════════════════════════════════════════════════════════════
-- Strings
-- ════════════════════════════════════════════════════════════════════════

/-- `[0-9A-Fa-f]`. -/
def hexValue? (c : Char) : Option ℕ :=
  if '0' ≤ c ∧ c ≤ '9' then some (c.toNat - 48)
  else if 'a' ≤ c ∧ c ≤ 'f' then some (c.toNat - 87)
  else if 'A' ≤ c ∧ c ≤ 'F' then some (c.toNat - 55)
  else none

/-- The characters that a backslash and one letter stand for. -/
def escapes : List (Char × Char) :=
  [('\x22', '\x22'), ('\\', '\\'), ('/', '/'), ('b', '\x08'), ('f', '\x0c'), ('n', '\n'),
    ('r', '\r'), ('t', '\t')]

def hexUnit? (a b c d : Char) : Option ℕ := do
  pure (0x1000 * (← hexValue? a) + 0x100 * (← hexValue? b) + 0x10 * (← hexValue? c) +
    (← hexValue? d))

/-- The units of a string, after its opening quote, and the text after its closing one. -/
def readUnits : List Char → Option (List ℕ × List Char)
  | [] => none
  | c :: text =>
    if c = '\x22' then some ([], text)
    else if c = '\\' then
      match text with
      | [] => none
      | e :: text =>
        if e = 'u' then
          match text with
          | a :: b :: c :: d :: text =>
            (hexUnit? a b c d).bind fun unit =>
              (readUnits text).map fun (units, rest) => (unit :: units, rest)
          | _ => none
        else
          (escapes.lookup e).bind fun c =>
            (readUnits text).map fun (units, rest) => (c.toNat :: units, rest)
    else if c.toNat < 0x20 then none
    else (readUnits text).map fun (units, rest) => (c.toNat :: units, rest)

/-- A high surrogate and the low one after it are one code point. -/
def joinSurrogates : List ℕ → List Point
  | [] => []
  | [unit] => [Fin.ofNat 0x110000 unit]
  | high :: low :: units =>
    if (0xd800 ≤ high ∧ high ≤ 0xdbff) ∧ 0xdc00 ≤ low ∧ low ≤ 0xdfff then
      Fin.ofNat 0x110000 (0x10000 + 0x400 * (high - 0xd800) + (low - 0xdc00)) ::
        joinSurrogates units
    else Fin.ofNat 0x110000 high :: joinSurrogates (low :: units)

def readString (text : List Char) : Option (List Point × List Char) := do
  let (units, rest) ← readUnits text
  pure (joinSurrogates units, rest)

-- ════════════════════════════════════════════════════════════════════════
-- Numbers and words
-- ════════════════════════════════════════════════════════════════════════

section Read

variable {V E : Type} (h : Hooks V E)

/-- `(\.\d+)?` -/
def readFraction (text : List Char) : List Char × List Char :=
  match text with
  | '.' :: rest =>
    if rest.takeWhile Char.isDigit = [] then ([], text)
    else ('.' :: rest.takeWhile Char.isDigit, rest.dropWhile Char.isDigit)
  | _ => ([], text)

/-- `[-+]?` -/
def readSign (text : List Char) : List Char × List Char :=
  match text with
  | '-' :: rest => (['-'], rest)
  | '+' :: rest => (['+'], rest)
  | _ => ([], text)

/-- `([eE][-+]?\d+)?` -/
def readExponent (text : List Char) : List Char × List Char :=
  match text with
  | e :: rest =>
    if (e = 'e' ∨ e = 'E') ∧ (readSign rest).2.takeWhile Char.isDigit ≠ [] then
      (e :: ((readSign rest).1 ++ (readSign rest).2.takeWhile Char.isDigit),
        (readSign rest).2.dropWhile Char.isDigit)
    else ([], text)
  | [] => ([], text)

/-- `0|[1-9]\d*` -/
def readDigits (text : List Char) : List Char × List Char :=
  match text with
  | '0' :: rest => (['0'], rest)
  | _ => (text.takeWhile Char.isDigit, text.dropWhile Char.isDigit)

/-- A number without its sign. -/
def readUnsigned (negative : Bool) (text : List Char) : Except E (V × List Char) :=
  let (digits, rest) := readDigits text
  let (fraction, rest) := readFraction rest
  let (exponent, rest) := readExponent rest
  let sign := if negative then ['-'] else []
  if digits = [] then .error h.invalid
  else if fraction = [] ∧ exponent = [] then
    let n : ℕ := Nat.ofDigitChars 10 digits 0
    .ok (h.int (if negative then -n else n), rest)
  else .ok (h.float (sign ++ digits ++ fraction ++ exponent), rest)

def readNumber (text : List Char) : Except E (V × List Char) :=
  match text with
  | '-' :: rest => readUnsigned h true rest
  | _ => readUnsigned h false text

/-- The words of the grammar, and the three that are none of its numbers. -/
def words : List (List Char × Except E V) :=
  [(['n', 'u', 'l', 'l'], .ok h.null),
    (['t', 'r', 'u', 'e'], .ok (h.bool true)),
    (['f', 'a', 'l', 's', 'e'], .ok (h.bool false)),
    (['N', 'a', 'N'], h.constant ['N', 'a', 'N']),
    (['I', 'n', 'f', 'i', 'n', 'i', 't', 'y'],
      h.constant ['I', 'n', 'f', 'i', 'n', 'i', 't', 'y']),
    (['-', 'I', 'n', 'f', 'i', 'n', 'i', 't', 'y'],
      h.constant ['-', 'I', 'n', 'f', 'i', 'n', 'i', 't', 'y'])]

/-- A word, or else a number. -/
def readScalar (text : List Char) : Except E (V × List Char) :=
  match (words h).find? fun word => word.1.isPrefixOf text with
  | some (word, value) => value.map fun v => (v, text.drop word.length)
  | none => readNumber h text

-- ════════════════════════════════════════════════════════════════════════
-- Documents
-- ════════════════════════════════════════════════════════════════════════

def isSpace (c : Char) : Bool := c = ' ' || c = '\t' || c = '\n' || c = '\r'

def skipSpace (text : List Char) : List Char := text.dropWhile isSpace

mutual

/-- The value at the start of a text, and the text after it. -/
def readValue : ℕ → List Char → Except E (V × List Char)
  | 0, _ => .error h.invalid
  | fuel + 1, text =>
    match text with
    | '\x22' :: rest =>
      match readString rest with
      | some (s, rest) => .ok (h.str s, rest)
      | none => .error h.invalid
    | '[' :: rest =>
      match skipSpace rest with
      | ']' :: rest => .ok (h.array [], rest)
      | rest => do
        let (items, rest) ← readItems fuel rest
        pure (h.array items, rest)
    | '\x7b' :: rest =>
      match skipSpace rest with
      | '\x7d' :: rest => do
        let v ← h.object []
        pure (v, rest)
      | rest => do
        let (members, rest) ← readMembers fuel rest
        let v ← h.object members
        pure (v, rest)
    | _ => readScalar h text

/-- The items of an array that has some, up to its end. -/
def readItems : ℕ → List Char → Except E (List V × List Char)
  | 0, _ => .error h.invalid
  | fuel + 1, text => do
    let (v, rest) ← readValue fuel text
    match skipSpace rest with
    | ',' :: rest => do
      let (vs, rest) ← readItems fuel (skipSpace rest)
      pure (v :: vs, rest)
    | ']' :: rest => .ok ([v], rest)
    | _ => .error h.invalid

/-- The members of an object that has some, up to its end. -/
def readMembers : ℕ → List Char → Except E (List (List Point × V) × List Char)
  | 0, _ => .error h.invalid
  | fuel + 1, text =>
    match text with
    | '\x22' :: rest =>
      match readString rest with
      | none => .error h.invalid
      | some (key, rest) =>
        match skipSpace rest with
        | ':' :: rest => do
          let (v, rest) ← readValue fuel (skipSpace rest)
          match skipSpace rest with
          | ',' :: rest => do
            let (members, rest) ← readMembers fuel (skipSpace rest)
            pure ((key, v) :: members, rest)
          | '\x7d' :: rest => .ok ([(key, v)], rest)
          | _ => .error h.invalid
        | _ => .error h.invalid
    | _ => .error h.invalid

end

/-- The document that a text is. -/
def load (text : List Char) : Except E V := do
  let (v, rest) ← readValue h (2 * text.length + 1) (skipSpace text)
  if skipSpace rest = [] then .ok v else .error h.invalid

end Read

-- ════════════════════════════════════════════════════════════════════════
-- Trees
-- ════════════════════════════════════════════════════════════════════════

/-- A document over proper text, without fractions. -/
inductive Tree
  | null
  | bool (value : Bool)
  | int (value : ℤ)
  | str (value : String)
  | array (items : List Tree)
  | object (members : List (String × Tree))

def point (c : Char) : Point := Fin.ofNat 0x110000 c.toNat

namespace Tree

/-- A character of a string as it is written. -/
def escape (c : Char) : List Char :=
  if c = '\x22' then ['\\', '\x22']
  else if c = '\\' then ['\\', '\\']
  else if c = '\n' then ['\\', 'n']
  else if c = '\r' then ['\\', 'r']
  else if c = '\t' then ['\\', 't']
  else if c = '\x08' then ['\\', 'b']
  else if c = '\x0c' then ['\\', 'f']
  else if c.toNat < 0x20 then
    ['\\', 'u', '0', '0', Nat.digitChar (c.toNat / 16), Nat.digitChar (c.toNat % 16)]
  else [c]

def writeString (s : String) : List Char := '\x22' :: (s.toList.flatMap escape ++ ['\x22'])

def writeInt (n : ℤ) : List Char :=
  if n < 0 then '-' :: Nat.toDigits 10 n.natAbs else Nat.toDigits 10 n.natAbs

mutual

/-- The text of a tree. -/
def write : Tree → List Char
  | .null => ['n', 'u', 'l', 'l']
  | .bool true => ['t', 'r', 'u', 'e']
  | .bool false => ['f', 'a', 'l', 's', 'e']
  | .int n => writeInt n
  | .str s => writeString s
  | .array items => '[' :: (writeItems items ++ [']'])
  | .object members => '\x7b' :: (writeMembers members ++ ['\x7d'])

def writeItems : List Tree → List Char
  | [] => []
  | t :: ts => write t ++ if ts.isEmpty then [] else ',' :: writeItems ts

def writeMembers : List (String × Tree) → List Char
  | [] => []
  | (key, t) :: members =>
    writeString key ++ ':' :: (write t ++ if members.isEmpty then [] else ',' :: writeMembers members)

end

section Fold

variable {V E : Type} (h : Hooks V E)

mutual

/-- What the hooks make of a tree, from the leaves up. -/
def fold : Tree → Except E V
  | .null => .ok h.null
  | .bool b => .ok (h.bool b)
  | .int n => .ok (h.int n)
  | .str s => .ok (h.str (s.toList.map point))
  | .array items => do
    let vs ← foldItems items
    pure (h.array vs)
  | .object members => do
    let members ← foldMembers members
    h.object members

def foldItems : List Tree → Except E (List V)
  | [] => pure []
  | t :: ts => do
    let v ← fold t
    let vs ← foldItems ts
    pure (v :: vs)

def foldMembers : List (String × Tree) → Except E (List (List Point × V))
  | [] => pure []
  | (key, t) :: members => do
    let v ← fold t
    let rest ← foldMembers members
    pure ((key.toList.map point, v) :: rest)

end

end Fold

end Tree

-- ════════════════════════════════════════════════════════════════════════
-- Reading a string back
-- ════════════════════════════════════════════════════════════════════════

theorem hexValue?_digitChar : ∀ n < 16, hexValue? (Nat.digitChar n) = some n := by decide

theorem readUnits_letter {e c : Char} (hu : e ≠ 'u') (he : escapes.lookup e = some c)
    (text : List Char) :
    readUnits ('\\' :: e :: text) =
      (readUnits text).map fun (units, rest) => (c.toNat :: units, rest) := by
  rw [readUnits.eq_def]
  simp only [Char.reduceEq, if_false, if_true, if_neg hu, he, Option.bind_some]

/-- A written character is read back. -/
theorem readUnits_escape (c : Char) (text : List Char) :
    readUnits (Tree.escape c ++ text) =
      (readUnits text).map fun (units, rest) => (c.toNat :: units, rest) := by
  unfold Tree.escape
  split_ifs with hquote hback hn hr ht hb hf hlow
  · subst hquote; exact readUnits_letter (by decide) (by decide) text
  · subst hback; exact readUnits_letter (by decide) (by decide) text
  · subst hn; exact readUnits_letter (by decide) (by decide) text
  · subst hr; exact readUnits_letter (by decide) (by decide) text
  · subst ht; exact readUnits_letter (by decide) (by decide) text
  · subst hb; exact readUnits_letter (by decide) (by decide) text
  · subst hf; exact readUnits_letter (by decide) (by decide) text
  · have hunit : hexUnit? '0' '0' (Nat.digitChar (c.toNat / 16)) (Nat.digitChar (c.toNat % 16)) =
        some c.toNat := by
      have hhigh := hexValue?_digitChar (c.toNat / 16) (by omega)
      have hdigit := hexValue?_digitChar (c.toNat % 16) (by omega)
      have hzero : hexValue? '0' = some 0 := by decide
      simp only [hexUnit?, hzero, hhigh, hdigit, Option.bind_eq_bind, Option.bind_some,
        Option.pure_def, Option.some.injEq]
      omega
    show readUnits ('\\' :: 'u' :: '0' :: '0' :: _ :: _ :: text) = _
    rw [readUnits.eq_def]
    simp only [Char.reduceEq, if_false, if_true, hunit, Option.bind_some]
  · show readUnits (c :: text) = _
    rw [readUnits.eq_def]
    simp only [if_neg hquote, if_neg hback, if_neg hlow]

theorem readUnits_string (cs text : List Char) :
    readUnits (cs.flatMap Tree.escape ++ '\x22' :: text) = some (cs.map Char.toNat, text) := by
  induction cs with
  | nil =>
    show readUnits ('\x22' :: text) = _
    rw [readUnits.eq_def]
    rfl
  | cons c cs ih =>
    rw [List.flatMap_cons, List.append_assoc, readUnits_escape, ih]
    rfl

/-- A character is no surrogate. -/
theorem not_surrogate (c : Char) : ¬(0xd800 ≤ c.toNat ∧ c.toNat ≤ 0xdfff) := by
  have hvalid := c.valid
  simp only [UInt32.isValidChar, Nat.isValidChar] at hvalid
  show ¬(0xd800 ≤ c.val.toNat ∧ c.val.toNat ≤ 0xdfff)
  omega

theorem joinSurrogates_toNat (cs : List Char) :
    joinSurrogates (cs.map Char.toNat) = cs.map point := by
  induction cs with
  | nil => rfl
  | cons c cs ih =>
    cases cs with
    | nil => rfl
    | cons d cs =>
      have hhigh : ¬((0xd800 ≤ c.toNat ∧ c.toNat ≤ 0xdbff) ∧ 0xdc00 ≤ d.toNat ∧ d.toNat ≤ 0xdfff) :=
        fun h => not_surrogate c ⟨h.1.1, by omega⟩
      rw [List.map_cons, List.map_cons, joinSurrogates, if_neg hhigh, ← List.map_cons, ih]
      rfl

/-- A written string is read back. -/
theorem readString_writeString (s : String) (text : List Char) :
    readString (s.toList.flatMap Tree.escape ++ '\x22' :: text) =
      some (s.toList.map point, text) := by
  simp only [readString, readUnits_string, joinSurrogates_toNat, Option.bind_eq_bind,
    Option.bind_some, Option.pure_def]

-- ════════════════════════════════════════════════════════════════════════
-- Reading a number back
-- ════════════════════════════════════════════════════════════════════════

/-- What may stand after a number without becoming a part of it. -/
def Follows (rest : List Char) : Prop :=
  ∀ c ∈ rest.head?, c.isDigit = false ∧ c ≠ '.' ∧ c ≠ 'e' ∧ c ≠ 'E'

theorem follows_nil : Follows [] := fun _ h => absurd h (by simp)

theorem follows_cons {c : Char} (rest : List Char)
    (h : c.isDigit = false ∧ c ≠ '.' ∧ c ≠ 'e' ∧ c ≠ 'E') : Follows (c :: rest) := by
  intro d hd
  obtain rfl := Option.some.inj hd
  exact h

section Digits

variable {digits rest : List Char}

theorem takeWhile_digits (hdigits : ∀ c ∈ digits, c.isDigit = true) (hrest : Follows rest) :
    (digits ++ rest).takeWhile Char.isDigit = digits ∧
      (digits ++ rest).dropWhile Char.isDigit = rest := by
  have hend : rest.takeWhile Char.isDigit = [] ∧ rest.dropWhile Char.isDigit = rest := by
    cases rest with
    | nil => exact ⟨rfl, rfl⟩
    | cons c rest =>
      have hc := (hrest c rfl).1
      exact ⟨by rw [List.takeWhile_cons, hc]; rfl, by rw [List.dropWhile_cons, hc]; rfl⟩
  rw [List.takeWhile_append_of_pos hdigits, List.dropWhile_append_of_pos hdigits, hend.1, hend.2,
    List.append_nil]
  exact ⟨rfl, rfl⟩

theorem readFraction_follows (hrest : Follows rest) : readFraction rest = ([], rest) := by
  cases rest with
  | nil => rfl
  | cons c rest =>
    have hdot := (hrest c rfl).2.1
    rw [readFraction]
    intro t ht
    exact hdot (List.cons.inj ht).1

theorem readExponent_follows (hrest : Follows rest) : readExponent rest = ([], rest) := by
  cases rest with
  | nil => rfl
  | cons c rest =>
    have hc := (hrest c rfl).2.2
    rw [readExponent, if_neg fun h => h.1.elim hc.1 hc.2]

theorem isDigit_toDigits (n : ℕ) : ∀ c ∈ Nat.toDigits 10 n, c.isDigit = true := fun _ hc =>
  Nat.isDigit_of_mem_toDigits (by decide) (by decide) hc

/-- A numeral begins with a digit. -/
theorem exists_toDigits (n : ℕ) :
    ∃ d ds, Nat.toDigits 10 n = d :: ds ∧ d.isDigit = true := by
  cases hds : Nat.toDigits 10 n with
  | nil => exact absurd hds Nat.toDigits_ne_nil
  | cons d ds => exact ⟨d, ds, rfl, isDigit_toDigits n d (by rw [hds]; exact List.mem_cons_self ..)⟩

theorem ne_of_isDigit {c d : Char} (hd : d.isDigit = true) (hc : c.isDigit = false) : d ≠ c := by
  rintro rfl
  exact absurd (hc.symm.trans hd) (by decide)

theorem digitChar_ne_zero : ∀ n < 10, 0 < n → Nat.digitChar n ≠ '0' := by decide

/-- A numeral begins with a zero for zero only. -/
theorem head?_toDigits {n : ℕ} (hn : 0 < n) : (Nat.toDigits 10 n).head? ≠ some '0' := by
  induction n using Nat.strong_induction_on with
  | h n ih =>
    by_cases hlt : n < 10
    · rw [Nat.toDigits_of_lt_base hlt]
      exact fun h => digitChar_ne_zero n hlt hn (Option.some.inj h)
    · have hhead := ih (n / 10) (by omega) (by omega)
      rw [Nat.toDigits_of_base_le (by decide) (by omega)]
      obtain ⟨d, ds, hds, _⟩ := exists_toDigits (n / 10)
      rw [hds] at hhead ⊢
      exact hhead

theorem readDigits_toDigits (n : ℕ) (hrest : Follows rest) :
    readDigits (Nat.toDigits 10 n ++ rest) = (Nat.toDigits 10 n, rest) := by
  obtain rfl | hn := Nat.eq_zero_or_pos n
  · rfl
  · have hspan := takeWhile_digits (isDigit_toDigits n) hrest
    rw [readDigits, hspan.1, hspan.2]
    intro t ht
    obtain ⟨d, ds, hds, _⟩ := exists_toDigits n
    have hhead := head?_toDigits hn
    rw [hds] at ht hhead
    exact hhead (congrArg some (List.cons.inj ht).1)

end Digits

section Numbers

variable {V E : Type} (h : Hooks V E) {rest : List Char}

theorem readUnsigned_toDigits (negative : Bool) (n : ℕ) (hrest : Follows rest) :
    readUnsigned h negative (Nat.toDigits 10 n ++ rest) =
      .ok (h.int (if negative then -n else n), rest) := by
  simp only [readUnsigned, readDigits_toDigits n hrest, readFraction_follows hrest,
    readExponent_follows hrest, Nat.toDigits_ne_nil, if_false, and_self, if_true,
    Nat.ofDigitChars_toDigits (b := 10) (by decide) (by decide)]

theorem readNumber_writeInt (n : ℤ) (hrest : Follows rest) :
    readNumber h (Tree.writeInt n ++ rest) = .ok (h.int n, rest) := by
  unfold Tree.writeInt
  split_ifs with hneg
  · rw [List.cons_append, readNumber, readUnsigned_toDigits h true _ hrest, if_pos rfl]
    congr 3
    omega
  · rw [readNumber, readUnsigned_toDigits h false _ hrest]
    · simp only [Bool.false_eq_true, if_false]
      congr 3
      omega
    · intro t ht
      obtain ⟨d, ds, hds, hd⟩ := exists_toDigits n.natAbs
      rw [hds] at ht
      exact ne_of_isDigit hd (by decide) (List.cons.inj ht).1

end Numbers

-- ════════════════════════════════════════════════════════════════════════
-- Reading a tree back
-- ════════════════════════════════════════════════════════════════════════

section Trees

variable {V E : Type} (h : Hooks V E)

/-- A text that does not begin as a string, an array or an object does. -/
def ScalarHead (text : List Char) : Prop :=
  ∀ c ∈ text.head?, c ≠ '\x22' ∧ c ≠ '[' ∧ c ≠ '\x7b'

theorem readValue_scalar {text : List Char} (htext : ScalarHead text) (fuel : ℕ) :
    readValue h (fuel + 1) text = readScalar h text := by
  cases text with
  | nil => rfl
  | cons c text =>
    obtain ⟨hquote, hbracket, hbrace⟩ := htext c rfl
    rw [readValue.eq_def]
    split <;> simp_all

theorem readScalar_number {text : List Char}
    (htext : ∀ word ∈ words h, word.1.isPrefixOf text = false) :
    readScalar h text = readNumber h text := by
  have hnone : (words h).find? (fun word => word.1.isPrefixOf text) = none :=
    List.find?_eq_none.mpr fun word hword hprefix => by
      rw [htext word hword] at hprefix
      exact absurd hprefix (by decide)
  rw [readScalar, hnone]

/-- No word begins as the text of a number does. -/
theorem readScalar_writeInt (n : ℤ) {rest : List Char} (hrest : Follows rest) :
    readScalar h (Tree.writeInt n ++ rest) = .ok (h.int n, rest) := by
  rw [readScalar_number, readNumber_writeInt h n hrest]
  obtain ⟨d, ds, hds, hd⟩ := exists_toDigits n.natAbs
  have hother : ∀ c : Char, c.isDigit = false → (c == d) = false := fun c hc =>
    beq_false_of_ne (ne_of_isDigit hd hc).symm
  simp only [Tree.writeInt, hds]
  split_ifs
  · simp [words, List.isPrefixOf, hother 'I' (by decide)]
  · simp [words, List.isPrefixOf, hother _ (show Char.isDigit 'n' = false by decide),
      hother _ (show Char.isDigit 't' = false by decide),
      hother _ (show Char.isDigit 'f' = false by decide),
      hother _ (show Char.isDigit 'N' = false by decide),
      hother _ (show Char.isDigit 'I' = false by decide),
      hother _ (show Char.isDigit '-' = false by decide)]

/-- The text of a number begins with a sign or with a digit. -/
theorem exists_writeInt (n : ℤ) :
    ∃ c cs, Tree.writeInt n = c :: cs ∧ (c = '-' ∨ c.isDigit = true) := by
  obtain ⟨d, ds, hds, hd⟩ := exists_toDigits n.natAbs
  unfold Tree.writeInt
  split_ifs
  · exact ⟨'-', _, rfl, .inl rfl⟩
  · exact ⟨d, ds, hds, .inr hd⟩

theorem scalarHead_writeInt (n : ℤ) (rest : List Char) : ScalarHead (Tree.writeInt n ++ rest) := by
  intro c hc
  obtain ⟨d, ds, hds, hd⟩ := exists_writeInt n
  rw [hds] at hc
  obtain rfl := Option.some.inj hc
  obtain rfl | hd := hd
  · decide
  · exact ⟨ne_of_isDigit hd rfl, ne_of_isDigit hd rfl, ne_of_isDigit hd rfl⟩

/-- The text of a tree begins with neither white space nor a closing bracket. -/
theorem exists_write (t : Tree) : ∃ c cs, t.write = c :: cs ∧ isSpace c = false ∧ c ≠ ']' := by
  cases t with
  | null => exact ⟨_, _, rfl, by decide⟩
  | bool b => cases b <;> exact ⟨_, _, rfl, by decide⟩
  | str s => exact ⟨_, _, rfl, by decide⟩
  | array items => exact ⟨_, _, rfl, by decide⟩
  | object members => exact ⟨_, _, rfl, by decide⟩
  | int n =>
    obtain ⟨d, ds, hds, hd⟩ := exists_writeInt n
    refine ⟨d, ds, hds, ?_⟩
    obtain rfl | hd := hd
    · decide
    · have hne := @ne_of_isDigit
      simp only [isSpace, Bool.or_eq_false_iff, decide_eq_false_iff_not]
      exact ⟨⟨⟨⟨hne hd rfl, hne hd rfl⟩, hne hd rfl⟩, hne hd rfl⟩, hne hd rfl⟩

theorem skipSpace_write (t : Tree) (rest : List Char) :
    skipSpace (t.write ++ rest) = t.write ++ rest := by
  obtain ⟨c, cs, hcs, hc, _⟩ := exists_write t
  rw [hcs, skipSpace, List.cons_append, List.dropWhile_cons, hc]
  rfl

/-- An array with items is read item by item. -/
theorem readValue_array {text : List Char} (hspace : skipSpace text = text)
    (hhead : text.head? ≠ some ']') (fuel : ℕ) :
    readValue h (fuel + 1) ('[' :: text) =
      (readItems h fuel text).map fun (items, rest) => (h.array items, rest) := by
  rw [readValue, hspace]
  split
  · exact absurd rfl hhead
  · cases readItems h fuel text <;> rfl

/-- An object with members is read member by member. -/
theorem readValue_object {text : List Char} (hspace : skipSpace text = text)
    (hhead : text.head? ≠ some '\x7d') (fuel : ℕ) :
    readValue h (fuel + 1) ('\x7b' :: text) = (do
      let (members, rest) ← readMembers h fuel text
      let v ← h.object members
      pure (v, rest)) := by
  rw [readValue, hspace]
  split
  · exact absurd rfl hhead
  · rfl

theorem writeItems_cons (t : Tree) (ts : List Tree) :
    Tree.writeItems (t :: ts) =
      t.write ++ match ts with
        | [] => []
        | t' :: ts => ',' :: Tree.writeItems (t' :: ts) := by
  cases ts <;> rfl

theorem writeMembers_cons (key : String) (t : Tree) (members : List (String × Tree)) :
    Tree.writeMembers ((key, t) :: members) =
      '\x22' :: (key.toList.flatMap Tree.escape ++ '\x22' :: ':' :: (t.write ++
        match members with
        | [] => []
        | m :: members => ',' :: Tree.writeMembers (m :: members))) := by
  cases members <;> simp [Tree.writeMembers, Tree.writeString]

mutual

/-- Reading a written value does what the hooks do on it. -/
theorem readValue_write : ∀ (t : Tree) (fuel : ℕ) (rest : List Char), 2 * t.write.length ≤ fuel →
    Follows rest → readValue h fuel (t.write ++ rest) = (t.fold h).map fun v => (v, rest)
  | t, 0, _, hfuel, _ => by
    obtain ⟨c, cs, hcs, _⟩ := exists_write t
    rw [hcs, List.length_cons] at hfuel
    omega
  | .null, fuel + 1, rest, _, _ => by
    rw [readValue_scalar h fun c hc => by obtain rfl := Option.some.inj hc; decide]
    simp [Tree.write, Tree.fold, readScalar, words, List.isPrefixOf, Except.map]
  | .bool true, fuel + 1, rest, _, _ => by
    rw [readValue_scalar h fun c hc => by obtain rfl := Option.some.inj hc; decide]
    simp [Tree.write, Tree.fold, readScalar, words, List.isPrefixOf, Except.map]
  | .bool false, fuel + 1, rest, _, _ => by
    rw [readValue_scalar h fun c hc => by obtain rfl := Option.some.inj hc; decide]
    simp [Tree.write, Tree.fold, readScalar, words, List.isPrefixOf, Except.map]
  | .int n, fuel + 1, rest, _, hrest => by
    rw [Tree.write, readValue_scalar h (scalarHead_writeInt n rest), readScalar_writeInt h n hrest,
      Tree.fold]
    rfl
  | .str s, fuel + 1, rest, _, _ => by
    rw [Tree.write, Tree.writeString, List.cons_append, List.append_assoc, List.singleton_append,
      readValue, readString_writeString, Tree.fold]
    rfl
  | .array [], fuel + 1, rest, _, _ => rfl
  | .array (t :: ts), fuel + 1, rest, hfuel, _ => by
    have hitems := readItems_write t ts fuel rest (by
      simp only [Tree.write, List.length_cons, List.length_append, List.length_nil] at hfuel
      omega)
    obtain ⟨c, cs, hcs, hc, hbracket⟩ := exists_write t
    rw [Tree.write, List.cons_append, List.append_assoc, List.singleton_append, readValue_array h,
      hitems, Tree.fold]
    · cases Tree.foldItems h (t :: ts) <;> rfl
    · rw [writeItems_cons, List.append_assoc, skipSpace_write]
    · rw [writeItems_cons, hcs]
      exact fun heq => hbracket (Option.some.inj heq)
  | .object [], fuel + 1, rest, _, _ => by
    rw [Tree.fold, Tree.foldMembers]
    show (h.object [] >>= fun v => pure (v, rest)) = Except.map _ (h.object [])
    cases h.object [] <;> rfl
  | .object ((key, t) :: members), fuel + 1, rest, hfuel, _ => by
    have hmembers := readMembers_write key t members fuel rest (by
      simp only [Tree.write, List.length_cons, List.length_append, List.length_nil] at hfuel
      omega)
    rw [Tree.write, List.cons_append, List.append_assoc, List.singleton_append,
      readValue_object h, hmembers, Tree.fold]
    · cases hfold : Tree.foldMembers h ((key, t) :: members) with
      | error e => rfl
      | ok ms =>
        show (h.object ms >>= fun v => pure (v, rest)) = Except.map _ (h.object ms)
        cases h.object ms <;> rfl
    · rw [writeMembers_cons]
      rfl
    · rw [writeMembers_cons]
      exact fun heq => absurd (Option.some.inj heq) (by decide)

theorem readItems_write : ∀ (t : Tree) (ts : List Tree) (fuel : ℕ) (rest : List Char),
    2 * (Tree.writeItems (t :: ts)).length + 1 ≤ fuel →
    readItems h fuel (Tree.writeItems (t :: ts) ++ ']' :: rest) =
      (Tree.foldItems h (t :: ts)).map fun vs => (vs, rest)
  | t, ts, 0, _, hfuel => by omega
  | t, [], fuel + 1, rest, hfuel => by
    have hvalue := readValue_write t fuel (']' :: rest) (by
      simp only [writeItems_cons, List.append_nil] at hfuel
      omega) (follows_cons _ (by decide))
    rw [writeItems_cons, List.append_nil, readItems, hvalue, Tree.foldItems]
    cases t.fold h <;> rfl
  | t, t' :: ts, fuel + 1, rest, hfuel => by
    simp only [writeItems_cons t, List.length_append, List.length_cons] at hfuel
    have hvalue := readValue_write t fuel
      (',' :: (Tree.writeItems (t' :: ts) ++ ']' :: rest)) (by omega)
      (follows_cons _ (by decide))
    have hitems := readItems_write t' ts fuel rest (by omega)
    have hspace : skipSpace (Tree.writeItems (t' :: ts) ++ ']' :: rest) =
        Tree.writeItems (t' :: ts) ++ ']' :: rest := by
      rw [writeItems_cons, List.append_assoc, skipSpace_write]
    rw [writeItems_cons t, List.append_assoc, List.cons_append, readItems, hvalue, Tree.foldItems]
    cases t.fold h with
    | error e => rfl
    | ok v =>
      show (readItems h fuel (skipSpace (Tree.writeItems (t' :: ts) ++ ']' :: rest)) >>= _) = _
      rw [hspace, hitems]
      cases Tree.foldItems h (t' :: ts) <;> rfl

theorem readMembers_write : ∀ (key : String) (t : Tree) (members : List (String × Tree))
    (fuel : ℕ) (rest : List Char),
    2 * (Tree.writeMembers ((key, t) :: members)).length + 1 ≤ fuel →
    readMembers h fuel (Tree.writeMembers ((key, t) :: members) ++ '\x7d' :: rest) =
      (Tree.foldMembers h ((key, t) :: members)).map fun ms => (ms, rest)
  | _, _, _, 0, _, hfuel => by omega
  | key, t, [], fuel + 1, rest, hfuel => by
    simp only [writeMembers_cons, List.length_append, List.length_cons, List.append_nil] at hfuel
    have hvalue := readValue_write t fuel ('\x7d' :: rest) (by omega)
      (follows_cons _ (by decide))
    have htext : Tree.writeMembers [(key, t)] ++ '\x7d' :: rest =
        '\x22' :: (key.toList.flatMap Tree.escape ++ '\x22' :: (':' :: (t.write ++
          '\x7d' :: rest))) := by
      simp [writeMembers_cons]
    rw [htext, readMembers, readString_writeString, Tree.foldMembers]
    show (readValue h fuel (skipSpace (t.write ++ '\x7d' :: rest)) >>= _) = _
    rw [skipSpace_write, hvalue]
    cases t.fold h <;> rfl
  | key, t, (key', t') :: members, fuel + 1, rest, hfuel => by
    simp only [writeMembers_cons key, List.length_append, List.length_cons] at hfuel
    have hvalue := readValue_write t fuel
      (',' :: (Tree.writeMembers ((key', t') :: members) ++ '\x7d' :: rest)) (by omega)
      (follows_cons _ (by decide))
    have hmembers := readMembers_write key' t' members fuel rest (by omega)
    have htext : Tree.writeMembers ((key, t) :: (key', t') :: members) ++ '\x7d' :: rest =
        '\x22' :: (key.toList.flatMap Tree.escape ++ '\x22' :: (':' :: (t.write ++
          ',' :: (Tree.writeMembers ((key', t') :: members) ++ '\x7d' :: rest)))) := by
      rw [writeMembers_cons]
      simp
    have hspace : skipSpace (Tree.writeMembers ((key', t') :: members) ++ '\x7d' :: rest) =
        Tree.writeMembers ((key', t') :: members) ++ '\x7d' :: rest := by
      rw [writeMembers_cons]
      rfl
    rw [htext, readMembers, readString_writeString, Tree.foldMembers]
    show (readValue h fuel (skipSpace (t.write ++ _)) >>= _) = _
    rw [skipSpace_write, hvalue]
    cases t.fold h with
    | error e => rfl
    | ok v =>
      show (readMembers h fuel (skipSpace (Tree.writeMembers ((key', t') :: members) ++ _)) >>= _) = _
      rw [hspace, hmembers]
      cases Tree.foldMembers h ((key', t') :: members) <;> rfl

end

/-- Reading a written tree does what the hooks do on the tree. -/
theorem load_write (t : Tree) : load h t.write = t.fold h := by
  have hvalue := readValue_write h t (2 * t.write.length + 1) [] (by omega) follows_nil
  have hspace := skipSpace_write t []
  rw [List.append_nil] at hvalue hspace
  rw [load, hspace, hvalue]
  cases t.fold h <;> rfl

end Trees

-- ════════════════════════════════════════════════════════════════════════
-- Different trees
-- ════════════════════════════════════════════════════════════════════════

namespace Tree

def text (s : List Point) : String := String.ofList (s.map fun p => Char.ofNat p.val)

theorem text_point (s : String) : text (s.toList.map point) = s := by
  have hpoint : ∀ c : Char, Char.ofNat (point c).val = c := by
    intro c
    have hvalid := c.valid
    simp only [UInt32.isValidChar, Nat.isValidChar] at hvalid
    have hlt : c.toNat < 0x110000 := by
      show c.val.toNat < 0x110000
      omega
    rw [point, Fin.val_ofNat, Nat.mod_eq_of_lt hlt, Char.ofNat_toNat]
  rw [text, List.map_map]
  simp only [Function.comp_def, hpoint, List.map_id']
  exact String.ofList_toList

/-- The hooks that build the tree itself. -/
def hooks : Hooks Tree Unit where
  null := .null
  bool := .bool
  int := .int
  float := fun _ => .null
  constant := fun _ => .error ()
  str := fun s => .str (text s)
  array := .array
  object := fun members => .ok (.object (members.map fun m => (text m.1, m.2)))
  invalid := ()

mutual

theorem fold_hooks : ∀ t : Tree, t.fold hooks = .ok t
  | .null | .bool _ | .int _ => rfl
  | .str s => by
    rw [fold]
    exact congrArg (fun s => Except.ok (Tree.str s)) (text_point s)
  | .array items => by
    rw [fold, foldItems_hooks items]
    rfl
  | .object members => by
    rw [fold, foldMembers_hooks members]
    show Except.ok (Tree.object ((members.map fun m => (m.1.toList.map point, m.2)).map fun m =>
      (text m.1, m.2))) = _
    simp only [List.map_map, Function.comp_def, text_point, List.map_id']

theorem foldItems_hooks : ∀ ts : List Tree, foldItems hooks ts = .ok ts
  | [] => rfl
  | t :: ts => by
    rw [foldItems, fold_hooks t, foldItems_hooks ts]
    rfl

theorem foldMembers_hooks : ∀ members : List (String × Tree),
    foldMembers hooks members = .ok (members.map fun m => (m.1.toList.map point, m.2))
  | [] => rfl
  | (key, t) :: members => by
    rw [foldMembers, fold_hooks t, foldMembers_hooks members]
    rfl

end

/-- Different trees have different texts. -/
theorem write_injective : Function.Injective write := by
  intro s t heq
  have hload := load_write hooks t
  rw [← heq, load_write, fold_hooks, fold_hooks] at hload
  exact Except.ok.inj hload

end Tree

-- ════════════════════════════════════════════════════════════════════════
-- What the reader returns
-- ════════════════════════════════════════════════════════════════════════

/-- Every hook makes a value with the property from values that have it. -/
structure Hooks.Keeps {V E : Type} (h : Hooks V E) (P : V → Prop) : Prop where
  null : P h.null
  bool : ∀ b, P (h.bool b)
  int : ∀ n, P (h.int n)
  float : ∀ text, P (h.float text)
  constant : ∀ word v, h.constant word = .ok v → P v
  str : ∀ s, P (h.str s)
  array : ∀ vs, (∀ v ∈ vs, P v) → P (h.array vs)
  object : ∀ members v, (∀ m ∈ members, P m.2) → h.object members = .ok v → P v

theorem readUnits_length {text rest : List Char} {units : List ℕ}
    (hread : readUnits text = some (units, rest)) : rest.length < text.length := by
  fun_induction readUnits text generalizing units with
  | case1 | case3 | case5 | case7 => exact absurd hread (by simp)
  | case2 text =>
    obtain ⟨-, rfl⟩ := Prod.mk.inj (Option.some.inj hread)
    exact Nat.lt_succ_self _
  | case4 a b c d text _ ih =>
    simp only [Option.bind_eq_some_iff, Option.map_eq_some_iff, Prod.exists, Prod.mk.injEq] at hread
    obtain ⟨_, _, _, _, hread, _, rfl⟩ := hread
    have hlt := ih hread
    simp only [List.length_cons]
    omega
  | case6 e text _ _ ih =>
    simp only [Option.bind_eq_some_iff, Option.map_eq_some_iff, Prod.exists, Prod.mk.injEq] at hread
    obtain ⟨_, _, _, _, hread, _, rfl⟩ := hread
    have hlt := ih hread
    simp only [List.length_cons]
    omega
  | case8 e text _ _ _ ih =>
    simp only [Option.map_eq_some_iff, Prod.exists, Prod.mk.injEq] at hread
    obtain ⟨_, _, hread, _, rfl⟩ := hread
    have hlt := ih hread
    simp only [List.length_cons]
    omega

theorem readString_length {text rest : List Char} {s : List Point}
    (hread : readString text = some (s, rest)) : rest.length < text.length := by
  simp only [readString, Option.bind_eq_bind, Option.bind_eq_some_iff, Option.pure_def,
    Option.some.injEq, Prod.exists, Prod.mk.injEq] at hread
  obtain ⟨units, _, hunits, _, rfl⟩ := hread
  exact readUnits_length hunits

theorem skipSpace_length (text : List Char) : (skipSpace text).length ≤ text.length :=
  (List.dropWhile_sublist _).length_le

theorem readFraction_length (text : List Char) : (readFraction text).2.length ≤ text.length := by
  unfold readFraction
  split
  · split_ifs
    · exact le_rfl
    · exact ((List.dropWhile_sublist _).length_le).trans (Nat.le_succ _)
  · exact le_rfl

theorem readSign_length (text : List Char) : (readSign text).2.length ≤ text.length := by
  unfold readSign
  split
  · exact Nat.le_succ _
  · exact Nat.le_succ _
  · exact le_rfl

theorem readExponent_length (text : List Char) : (readExponent text).2.length ≤ text.length := by
  unfold readExponent
  split
  · split_ifs
    · exact ((List.dropWhile_sublist _).length_le).trans ((readSign_length _).trans (Nat.le_succ _))
    · exact le_rfl
  · exact le_rfl

theorem readDigits_length (text : List Char) :
    (readDigits text).1.length + (readDigits text).2.length = text.length := by
  unfold readDigits
  split
  · simp only [List.length_cons, List.length_nil]
    omega
  · rw [← List.length_append, List.takeWhile_append_dropWhile]

section Returned

variable {V E : Type} {h : Hooks V E} {P : V → Prop} {text rest : List Char}

theorem readUnsigned_spec (hP : h.Keeps P) {negative : Bool} {v : V}
    (hread : readUnsigned h negative text = .ok (v, rest)) : P v ∧ rest.length < text.length := by
  have hdigits := readDigits_length text
  have hfraction := readFraction_length (readDigits text).2
  have hexponent := readExponent_length (readFraction (readDigits text).2).2
  simp only [readUnsigned] at hread
  split_ifs at hread with hnone
  all_goals
    obtain ⟨rfl, rfl⟩ := Prod.mk.inj (Except.ok.inj hread)
    have hpos := List.length_pos_iff.mpr hnone
    refine ⟨?_, by omega⟩
  · exact hP.int _
  · exact hP.int _
  · exact hP.float _
  · exact hP.float _

theorem words_spec (hP : h.Keeps P) :
    ∀ word ∈ words h, 0 < word.1.length ∧ ∀ v, word.2 = .ok v → P v := by
  simp only [words, List.forall_mem_cons, List.not_mem_nil, false_implies, implies_true, and_true]
  refine ⟨⟨by decide, ?_⟩, ⟨by decide, ?_⟩, ⟨by decide, ?_⟩, ⟨by decide, hP.constant _⟩,
    ⟨by decide, hP.constant _⟩, by decide, hP.constant _⟩
  · rintro _ ⟨⟩
    exact hP.null
  · rintro _ ⟨⟩
    exact hP.bool _
  · rintro _ ⟨⟩
    exact hP.bool _

theorem readScalar_spec (hP : h.Keeps P) {v : V} (hread : readScalar h text = .ok (v, rest)) :
    P v ∧ rest.length < text.length := by
  unfold readScalar at hread
  split at hread
  · next word value hword =>
    obtain ⟨hpos, hvalue⟩ := words_spec hP _ (List.mem_of_find?_eq_some hword)
    have hfound : word.isPrefixOf text = true := by simpa only using List.find?_some hword
    have hprefix := (List.isPrefixOf_iff_prefix.mp hfound).length_le
    cases value with
    | error e => exact absurd hread (by simp [Except.map])
    | ok w =>
      obtain ⟨rfl, rfl⟩ := Prod.mk.inj (Except.ok.inj hread)
      refine ⟨hvalue _ rfl, ?_⟩
      rw [List.length_drop]
      simp only at hpos hprefix
      omega
  · unfold readNumber at hread
    split at hread
    · have hspec := readUnsigned_spec hP hread
      exact ⟨hspec.1, hspec.2.trans (Nat.lt_succ_self _)⟩
    · exact readUnsigned_spec hP hread

theorem bind_ok {α β : Type} {x : Except E α} {f : α → Except E β} {b : β} :
    (x >>= f) = .ok b ↔ ∃ a, x = .ok a ∧ f a = .ok b := by
  cases x <;> simp [bind, Except.bind]

/-- What was read has the property, and some of the text was read. -/
theorem read_spec (hP : h.Keeps P) (fuel : ℕ) :
    (∀ {text v rest}, readValue h fuel text = .ok (v, rest) → P v ∧ rest.length < text.length) ∧
      (∀ {text vs rest}, readItems h fuel text = .ok (vs, rest) →
        (∀ v ∈ vs, P v) ∧ rest.length < text.length) ∧
      ∀ {text members rest}, readMembers h fuel text = .ok (members, rest) →
        (∀ m ∈ members, P m.2) ∧ rest.length < text.length := by
  induction fuel with
  | zero => exact ⟨fun hread => absurd hread (by simp [readValue]),
      fun hread => absurd hread (by simp [readItems]),
      fun hread => absurd hread (by simp [readMembers])⟩
  | succ fuel ih =>
    obtain ⟨hvalue, hitems, hmembers⟩ := ih
    refine ⟨fun {text v rest} hread => ?_, fun {text vs rest} hread => ?_,
      fun {text members rest} hread => ?_⟩
    · rw [readValue.eq_def] at hread
      dsimp only at hread
      split at hread
      -- a string
      · split at hread
        · next hstring =>
          obtain ⟨rfl, rfl⟩ := Prod.mk.inj (Except.ok.inj hread)
          exact ⟨hP.str _, (readString_length hstring).trans (Nat.lt_succ_self _)⟩
        · exact absurd hread (by simp)
      -- an array
      · next text =>
        have hspace := skipSpace_length text
        split at hread
        · next heq =>
          obtain ⟨rfl, rfl⟩ := Prod.mk.inj (Except.ok.inj hread)
          rw [heq] at hspace
          simp only [List.length_cons] at hspace ⊢
          exact ⟨hP.array [] (by simp), by omega⟩
        · simp only [bind_ok, Prod.exists] at hread
          obtain ⟨items, _, hread, heq⟩ := hread
          obtain ⟨rfl, rfl⟩ := Prod.mk.inj (Except.ok.inj heq)
          obtain ⟨hall, hlt⟩ := hitems hread
          rw [List.length_cons]
          exact ⟨hP.array _ hall, by omega⟩
      -- an object
      · next text =>
        have hspace := skipSpace_length text
        split at hread
        · next heq =>
          simp only [bind_ok] at hread
          obtain ⟨_, hobject, hread⟩ := hread
          obtain ⟨rfl, rfl⟩ := Prod.mk.inj (Except.ok.inj hread)
          rw [heq] at hspace
          simp only [List.length_cons] at hspace ⊢
          exact ⟨hP.object [] _ (by simp) hobject, by omega⟩
        · simp only [bind_ok, Prod.exists] at hread
          obtain ⟨members, _, hread, _, hobject, heq⟩ := hread
          obtain ⟨rfl, rfl⟩ := Prod.mk.inj (Except.ok.inj heq)
          obtain ⟨hall, hlt⟩ := hmembers hread
          rw [List.length_cons]
          exact ⟨hP.object _ _ hall hobject, by omega⟩
      · exact readScalar_spec hP hread
    · rw [readItems] at hread
      simp only [bind_ok, Prod.exists] at hread
      obtain ⟨v, tail, hread, hmore⟩ := hread
      obtain ⟨hv, hlt⟩ := hvalue hread
      have hspace := skipSpace_length tail
      split at hmore
      · next more heq =>
        have hmorespace := skipSpace_length more
        simp only [bind_ok, Prod.exists] at hmore
        obtain ⟨_, _, hmore, hpure⟩ := hmore
        obtain ⟨rfl, rfl⟩ := Prod.mk.inj (Except.ok.inj hpure)
        obtain ⟨hall, hltmore⟩ := hitems hmore
        rw [heq, List.length_cons] at hspace
        exact ⟨List.forall_mem_cons.mpr ⟨hv, hall⟩, by omega⟩
      · next more heq =>
        obtain ⟨rfl, rfl⟩ := Prod.mk.inj (Except.ok.inj hmore)
        rw [heq, List.length_cons] at hspace
        exact ⟨List.forall_mem_singleton.mpr hv, by omega⟩
      · exact absurd hmore (by simp)
    · rw [readMembers.eq_def] at hread
      dsimp only at hread
      split at hread
      · next text =>
        split at hread
        · exact absurd hread (by simp)
        · next key tail hkey =>
          have hkeylt := readString_length hkey
          have hspace := skipSpace_length tail
          split at hread
          · next more heq =>
            rw [heq, List.length_cons] at hspace
            have hmorespace := skipSpace_length more
            simp only [bind_ok, Prod.exists] at hread
            obtain ⟨v, last, hread, hmore⟩ := hread
            obtain ⟨hv, hlt⟩ := hvalue hread
            have hlast := skipSpace_length last
            rw [List.length_cons]
            split at hmore
            · next next heq =>
              have hnext := skipSpace_length next
              simp only [bind_ok, Prod.exists] at hmore
              obtain ⟨_, _, hmore, hpure⟩ := hmore
              obtain ⟨rfl, rfl⟩ := Prod.mk.inj (Except.ok.inj hpure)
              obtain ⟨hall, hltmore⟩ := hmembers hmore
              rw [heq, List.length_cons] at hlast
              exact ⟨List.forall_mem_cons.mpr ⟨hv, hall⟩, by omega⟩
            · next next heq =>
              obtain ⟨rfl, rfl⟩ := Prod.mk.inj (Except.ok.inj hmore)
              rw [heq, List.length_cons] at hlast
              exact ⟨List.forall_mem_singleton.mpr hv, by omega⟩
            · exact absurd hmore (by simp)
          · exact absurd hread (by simp)
      · exact absurd hread (by simp)

/-- What every hook keeps holds of what was read. -/
theorem load_keeps (hP : h.Keeps P) {v : V} (hread : load h text = .ok v) : P v := by
  simp only [load, bind_ok, Prod.exists] at hread
  obtain ⟨_, _, hvalue, hend⟩ := hread
  split_ifs at hend
  obtain rfl := Except.ok.inj hend
  exact ((read_spec hP _).1 hvalue).1

end Returned

-- ════════════════════════════════════════════════════════════════════════
-- Fuel
-- ════════════════════════════════════════════════════════════════════════

section Fuel

variable {V E : Type} (h : Hooks V E)

theorem keeps_true : h.Keeps fun _ => True :=
  ⟨trivial, fun _ => trivial, fun _ => trivial, fun _ => trivial, fun _ _ _ => trivial,
    fun _ => trivial, fun _ _ => trivial, fun _ _ _ _ => trivial⟩

/-- Fuel for the whole text is as good as any more of it. -/
theorem read_succ (fuel : ℕ) :
    (∀ text : List Char, 2 * text.length + 1 ≤ fuel →
        readValue h (fuel + 1) text = readValue h fuel text) ∧
      (∀ text : List Char, 2 * text.length + 2 ≤ fuel →
        readItems h (fuel + 1) text = readItems h fuel text) ∧
      ∀ text : List Char, 2 * text.length + 2 ≤ fuel →
        readMembers h (fuel + 1) text = readMembers h fuel text := by
  induction fuel with
  | zero => exact ⟨fun _ _ => by omega, fun _ _ => by omega, fun _ _ => by omega⟩
  | succ fuel ih =>
    obtain ⟨hvalue, hitems, hmembers⟩ := ih
    have hspec := read_spec (keeps_true h) fuel
    refine ⟨fun text hfuel => ?_, fun text hfuel => ?_, fun text hfuel => ?_⟩
    · rw [readValue.eq_def, readValue.eq_def h (fuel + 1)]
      dsimp only
      split
      · rfl
      · next text =>
        have hspace := skipSpace_length text
        rw [List.length_cons] at hfuel
        split
        · rfl
        · rw [hitems _ (by omega)]
      · next text =>
        have hspace := skipSpace_length text
        rw [List.length_cons] at hfuel
        split
        · rfl
        · rw [hmembers _ (by omega)]
      · rfl
    · rw [readItems, readItems, hvalue _ (by omega)]
      cases hread : readValue h fuel text with
      | error e => rfl
      | ok read =>
        obtain ⟨v, rest⟩ := read
        have hlt := (hspec.1 hread).2
        have hspace := skipSpace_length rest
        simp only [bind, Except.bind]
        split
        · next more heq =>
          have hmore := skipSpace_length more
          rw [heq, List.length_cons] at hspace
          rw [hitems _ (by omega)]
        · rfl
        · rfl
    · rw [readMembers.eq_def, readMembers.eq_def h (fuel + 1)]
      dsimp only
      split
      · next text =>
        rw [List.length_cons] at hfuel
        split
        · rfl
        · next key rest hkey =>
          have hlt := readString_length hkey
          have hspace := skipSpace_length rest
          split
          · next more heq =>
            have hmore := skipSpace_length more
            rw [heq, List.length_cons] at hspace
            rw [hvalue _ (by omega)]
            cases hread : readValue h fuel (skipSpace more) with
            | error e => rfl
            | ok read =>
              obtain ⟨v, last⟩ := read
              have hlast := (hspec.1 hread).2
              have hlastspace := skipSpace_length last
              simp only [bind, Except.bind]
              split
              · next next heq =>
                have hnext := skipSpace_length next
                rw [heq, List.length_cons] at hlastspace
                rw [hmembers _ (by omega)]
              · rfl
              · rfl
          · rfl
      · rfl

/-- The fuel of `load` does not run out: more of it reads the same. -/
theorem readValue_eq_of_le (text : List Char) {fuel : ℕ} (hfuel : 2 * text.length + 1 ≤ fuel) :
    readValue h fuel text = readValue h (2 * text.length + 1) text := by
  induction fuel, hfuel using Nat.le_induction with
  | base => rfl
  | succ fuel hfuel ih => rw [(read_succ h fuel).1 text hfuel, ih]

end Fuel

end JsonText
