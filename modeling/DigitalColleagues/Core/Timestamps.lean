import DigitalColleagues.Core.Common
import DigitalColleagues.Lib.FixedWidth

/-!
# Timestamps

Calendar values in UTC, the instants they name, and the text in which the store
keeps them. The text of a timestamp has one width, so texts compare as the
calendar values do, and these compare as the instants do.
-/

namespace DigitalColleagues

open FixedWidth

-- ════════════════════════════════════════════════════════════════════════
-- The calendar
-- ════════════════════════════════════════════════════════════════════════

def isLeap (year : ℕ) : Bool :=
  decide (year % 4 = 0 ∧ (year % 100 ≠ 0 ∨ year % 400 = 0))

/-- The days of a month, in a leap year or in another. -/
def daysInMonth (leap : Bool) : ℕ → ℕ
  | 2 => if leap then 29 else 28
  | 4 | 6 | 9 | 11 => 30
  | _ => 31

def daysBeforeMonth (leap : Bool) (month : ℕ) : ℕ :=
  [0, 0, 31, 59, 90, 120, 151, 181, 212, 243, 273, 304, 334].getD month 0 +
    if leap ∧ 2 < month then 1 else 0

def daysBeforeYear (year : ℕ) : ℕ :=
  (year - 1) * 365 + (year - 1) / 4 - (year - 1) / 100 + (year - 1) / 400

/-- Each month ends before a later one begins. -/
theorem daysBeforeMonth_add_le : ∀ leap : Bool, ∀ month < 13, ∀ later < 13, month < later →
    1 ≤ month → daysBeforeMonth leap month + daysInMonth leap month ≤
      daysBeforeMonth leap later := by
  decide

theorem daysBeforeMonth_add_le_year : ∀ leap : Bool, ∀ month < 13, 1 ≤ month →
    daysBeforeMonth leap month + daysInMonth leap month ≤ if leap then 366 else 365 := by
  decide

theorem daysBeforeYear_succ {year : ℕ} (hyear : 1 ≤ year) :
    daysBeforeYear (year + 1) = daysBeforeYear year + if isLeap year then 366 else 365 := by
  obtain ⟨n, rfl⟩ := Nat.exists_eq_add_of_le' hyear
  have hle : n / 100 ≤ n / 4 := Nat.div_le_div_left (by decide) (by decide)
  simp only [daysBeforeYear, isLeap, decide_eq_true_eq, Nat.add_sub_cancel, Nat.succ_div]
  split_ifs <;> omega

/-- Each year ends before a later one begins. -/
theorem daysBeforeYear_add_le {year later : ℕ} (hyear : 1 ≤ year) (h : year < later) :
    daysBeforeYear year + (if isLeap year then 366 else 365) ≤ daysBeforeYear later := by
  induction later, h using Nat.le_induction with
  | base => exact (daysBeforeYear_succ hyear).ge
  | succ later hlater ih =>
    rw [daysBeforeYear_succ (hyear.trans (Nat.le_of_succ_le hlater))]
    exact ih.trans (Nat.le_add_right _ _)

/-- A `datetime` whose `tzinfo` is UTC. -/
structure UtcDatetime where
  year : ℕ
  month : ℕ
  day : ℕ
  hour : ℕ
  minute : ℕ
  second : ℕ
  microsecond : ℕ
  year_bounds : 1 ≤ year ∧ year ≤ 9999
  month_bounds : 1 ≤ month ∧ month ≤ 12
  day_bounds : 1 ≤ day ∧ day ≤ daysInMonth (isLeap year) month
  hour_lt : hour < 24
  minute_lt : minute < 60
  second_lt : second < 60
  microsecond_lt : microsecond < 1000000
deriving DecidableEq

theorem daysInMonth_le : ∀ leap : Bool, ∀ month, daysInMonth leap month ≤ 31 := by
  intro leap month
  unfold daysInMonth
  split <;> cases leap <;> simp

namespace UtcDatetime

/-- The constructor, which refuses a field out of range. -/
def make (year month day hour minute second microsecond : ℕ) : Option UtcDatetime :=
  if h : (1 ≤ year ∧ year ≤ 9999) ∧ (1 ≤ month ∧ month ≤ 12) ∧
      (1 ≤ day ∧ day ≤ daysInMonth (isLeap year) month) ∧ hour < 24 ∧ minute < 60 ∧
      second < 60 ∧ microsecond < 1000000 then
    some ⟨year, month, day, hour, minute, second, microsecond, h.1, h.2.1, h.2.2.1, h.2.2.2.1,
      h.2.2.2.2.1, h.2.2.2.2.2.1, h.2.2.2.2.2.2⟩
  else none

theorem make_self (a : UtcDatetime) :
    make a.year a.month a.day a.hour a.minute a.second a.microsecond = some a :=
  dif_pos ⟨a.year_bounds, a.month_bounds, a.day_bounds, a.hour_lt, a.minute_lt, a.second_lt,
    a.microsecond_lt⟩

/-- The fields that Python compares, the most significant first. -/
def fields (a : UtcDatetime) : List ℕ :=
  [a.year, a.month, a.day, a.hour, a.minute, a.second, a.microsecond]

/-- Datetimes of one `tzinfo` compare field by field. -/
instance instLT : LT UtcDatetime := ⟨fun a b => a.fields < b.fields⟩

instance instDecidableLT (a b : UtcDatetime) : Decidable (a < b) :=
  inferInstanceAs (Decidable (a.fields < b.fields))

def toordinal (a : UtcDatetime) : ℕ :=
  daysBeforeYear a.year + daysBeforeMonth (isLeap a.year) a.month + a.day

def microOfDay (a : UtcDatetime) : ℕ :=
  ((a.hour * 60 + a.minute) * 60 + a.second) * 1000000 + a.microsecond

/-- Microseconds since the first of January 1970. -/
def instant (a : UtcDatetime) : Instant :=
  ((a.toordinal : ℤ) - 719163) * 86400000000 + a.microOfDay

theorem microOfDay_lt (a : UtcDatetime) : a.microOfDay < 86400000000 := by
  have hhour := a.hour_lt
  have hminute := a.minute_lt
  have hsecond := a.second_lt
  have hmicrosecond := a.microsecond_lt
  simp only [microOfDay]
  omega

theorem toordinal_lt_of_year {a b : UtcDatetime} (h : a.year < b.year) :
    a.toordinal < b.toordinal := by
  have hyear := daysBeforeYear_add_le a.year_bounds.1 h
  have hmonth := daysBeforeMonth_add_le_year (isLeap a.year) a.month
    (Nat.lt_succ_of_le a.month_bounds.2) a.month_bounds.1
  have ha := a.day_bounds.2
  have hb := b.day_bounds.1
  simp only [toordinal]
  omega

theorem toordinal_lt_of_month {a b : UtcDatetime} (hyear : a.year = b.year)
    (h : a.month < b.month) : a.toordinal < b.toordinal := by
  have hmonth := daysBeforeMonth_add_le (isLeap a.year) a.month
    (Nat.lt_succ_of_le a.month_bounds.2) b.month (Nat.lt_succ_of_le b.month_bounds.2) h
    a.month_bounds.1
  have ha := a.day_bounds.2
  have hb := b.day_bounds.1
  simp only [toordinal, ← hyear]
  omega

theorem toordinal_lt_of_day {a b : UtcDatetime} (hyear : a.year = b.year)
    (hmonth : a.month = b.month) (h : a.day < b.day) : a.toordinal < b.toordinal := by
  simp only [toordinal, hyear, hmonth]
  omega

/-- A later day is a later instant, whatever the time of day. -/
theorem instant_lt_of_toordinal {a b : UtcDatetime} (h : a.toordinal < b.toordinal) :
    a.instant < b.instant := by
  have ha := a.microOfDay_lt
  show (a.toordinal - 719163 : ℤ) * 86400000000 + a.microOfDay <
    (b.toordinal - 719163 : ℤ) * 86400000000 + b.microOfDay
  omega

theorem toordinal_eq {a b : UtcDatetime} (hyear : a.year = b.year) (hmonth : a.month = b.month)
    (hday : a.day = b.day) : a.toordinal = b.toordinal := by
  simp only [toordinal, hyear, hmonth, hday]

theorem lt_iff {a b : UtcDatetime} : a < b ↔ a.year < b.year ∨ a.year = b.year ∧
    (a.month < b.month ∨ a.month = b.month ∧ (a.day < b.day ∨ a.day = b.day ∧
      (a.hour < b.hour ∨ a.hour = b.hour ∧ (a.minute < b.minute ∨ a.minute = b.minute ∧
        (a.second < b.second ∨ a.second = b.second ∧ a.microsecond < b.microsecond))))) := by
  show a.fields < b.fields ↔ _
  simp only [fields, List.cons_lt_cons_iff, List.not_lt_nil, and_false, or_false]

/-- Within one day the time of day decides. -/
theorem instant_lt_of_time {a b : UtcDatetime} (hday : a.toordinal = b.toordinal)
    (h : a.hour < b.hour ∨ a.hour = b.hour ∧ (a.minute < b.minute ∨ a.minute = b.minute ∧
      (a.second < b.second ∨ a.second = b.second ∧ a.microsecond < b.microsecond))) :
    a.instant < b.instant := by
  have hminute := a.minute_lt
  have hsecond := a.second_lt
  have hmicrosecond := a.microsecond_lt
  have hmicro : a.microOfDay < b.microOfDay := by
    simp only [microOfDay]
    omega
  show (a.toordinal - 719163 : ℤ) * 86400000000 + a.microOfDay <
    (b.toordinal - 719163 : ℤ) * 86400000000 + b.microOfDay
  omega

theorem instant_lt_of_lt {a b : UtcDatetime} (h : a < b) : a.instant < b.instant := by
  obtain hyear | ⟨hyear, hmonth | ⟨hmonth, hday | ⟨hday, htime⟩⟩⟩ := lt_iff.mp h
  · exact instant_lt_of_toordinal (toordinal_lt_of_year hyear)
  · exact instant_lt_of_toordinal (toordinal_lt_of_month hyear hmonth)
  · exact instant_lt_of_toordinal (toordinal_lt_of_day hyear hmonth hday)
  · exact instant_lt_of_time (toordinal_eq hyear hmonth hday) htime

/-- Datetimes with the same fields are the same. -/
theorem fields_inj {a b : UtcDatetime} : a.fields = b.fields ↔ a = b := by
  refine ⟨fun h => ?_, fun h => by rw [h]⟩
  cases a
  cases b
  simp only [fields, List.cons.injEq, and_true] at h
  obtain ⟨rfl, rfl, rfl, rfl, rfl, rfl, rfl⟩ := h
  rfl

theorem trichotomy (a b : UtcDatetime) : a < b ∨ a = b ∨ b < a := by
  obtain h | h | h := lt_trichotomy a.fields b.fields
  · exact .inl h
  · exact .inr (.inl (fields_inj.mp h))
  · exact .inr (.inr h)

/-- Calendar values compare as the instants they name. -/
theorem instant_lt_iff {a b : UtcDatetime} : a.instant < b.instant ↔ a < b := by
  refine ⟨fun h => ?_, instant_lt_of_lt⟩
  obtain hlt | rfl | hgt := trichotomy a b
  · exact hlt
  · exact absurd h (lt_irrefl _)
  · exact absurd (instant_lt_of_lt hgt) h.not_gt

theorem instant_inj {a b : UtcDatetime} : a.instant = b.instant ↔ a = b := by
  refine ⟨fun h => ?_, fun h => by rw [h]⟩
  obtain hlt | heq | hgt := trichotomy a b
  · exact absurd h (instant_lt_of_lt hlt).ne
  · exact heq
  · exact absurd h (instant_lt_of_lt hgt).ne'

end UtcDatetime

-- ════════════════════════════════════════════════════════════════════════
-- The text
-- ════════════════════════════════════════════════════════════════════════

/-- `YYYY-MM-DDTHH:MM:SS.ffffff`. -/
def isoColumns : List Column :=
  [⟨4, ['-']⟩, ⟨2, ['-']⟩, ⟨2, ['T']⟩, ⟨2, [':']⟩, ⟨2, [':']⟩, ⟨2, ['.']⟩, ⟨6, []⟩]

/-- `value.isoformat(timespec="microseconds")`. -/
def isoformat (a : UtcDatetime) : List Char :=
  write isoColumns a.fields ++ "+00:00".toList

/-- `text.removesuffix(suffix)`. -/
def removeSuffix (text suffix : List Char) : List Char :=
  if suffix <:+ text then text.rdrop suffix.length else text

def datetimeToZ (value : UtcDatetime) : String :=
  String.ofList (removeSuffix (isoformat value) "+00:00".toList ++ ['Z'])

/-- `datetime.fromisoformat`: a text in the form that `isoformat` writes is
    checked field by field; `otherForms` reads the other forms of ISO 8601. -/
def fromIsoformat (otherForms : List Char → Option UtcDatetime) (text : List Char) :
    Option UtcDatetime :=
  match read isoColumns text with
  | some ([year, month, day, hour, minute, second, microsecond], rest) =>
    if rest = "+00:00".toList then
      UtcDatetime.make year month day hour minute second microsecond
    else otherForms text
  | _ => otherForms text

def datetimeFromZ (otherForms : List Char → Option UtcDatetime) (value : String) :
    Outcome UtcDatetime := do
  require (value.toList.getLast? = some 'Z')
    (.coreInvariant "serialized datetime must use an ISO 8601 Z suffix")
  orFail (fromIsoformat otherForms (value.toList.dropLast ++ "+00:00".toList))
    (.coreInvariant "serialized datetime is invalid")

/-- Every field fits its column. -/
theorem fits_fields (a : UtcDatetime) : Fits isoColumns a.fields := by
  have hyear := a.year_bounds
  have hmonth := a.month_bounds
  have hday := a.day_bounds.2.trans (daysInMonth_le (isLeap a.year) a.month)
  have hhour := a.hour_lt
  have hminute := a.minute_lt
  have hsecond := a.second_lt
  have hmicrosecond := a.microsecond_lt
  simp only [Fits, isoColumns, UtcDatetime.fields, List.forall₂_cons, List.Forall₂.nil, and_true]
  omega

theorem removeSuffix_append (text suffix : List Char) :
    removeSuffix (text ++ suffix) suffix = text := by
  simp [removeSuffix, List.rdrop]

/-- The stored text is the ISO form with `Z` for the offset. -/
theorem toList_datetimeToZ (a : UtcDatetime) :
    (datetimeToZ a).toList = write isoColumns a.fields ++ ['Z'] := by
  rw [datetimeToZ, isoformat, removeSuffix_append, String.toList_ofList]

/-- Stored texts compare as the datetimes they are written from. -/
theorem datetimeToZ_lt_iff {a b : UtcDatetime} : datetimeToZ a < datetimeToZ b ↔ a < b := by
  have hlen : (write isoColumns a.fields).length = (write isoColumns b.fields).length :=
    (length_write (fits_fields a)).trans (length_write (fits_fields b)).symm
  rw [String.lt_iff_toList_lt, toList_datetimeToZ, toList_datetimeToZ, append_right_lt_iff hlen,
    write_lt_write_iff (fits_fields a) (fits_fields b)]
  exact Iff.rfl

/-- Reading a stored text gives the datetime it was written from. -/
theorem datetimeFromZ_datetimeToZ (otherForms : List Char → Option UtcDatetime)
    (a : UtcDatetime) : datetimeFromZ otherForms (datetimeToZ a) = .ok a := by
  have hlast : (datetimeToZ a).toList.getLast? = some 'Z' := by
    rw [toList_datetimeToZ, List.getLast?_concat]
  have hread : fromIsoformat otherForms ((datetimeToZ a).toList.dropLast ++ "+00:00".toList) =
      some a := by
    rw [toList_datetimeToZ, List.dropLast_concat, fromIsoformat, read_write (fits_fields a)]
    simp only [UtcDatetime.fields, if_true]
    exact a.make_self
  simp only [datetimeFromZ, bind_eq_ok, require_eq_ok, orFail_eq_ok, exists_const, hlast, hread,
    true_and]

end DigitalColleagues
