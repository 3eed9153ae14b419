import Mathlib.Algebra.GroupWithZero.Nat
import Nl2Sql.Lib.Str

/-!
# Calendar dates

`datetime.date`: a day of the proleptic Gregorian calendar of the years 1 to 9999, ordered by time.
-/

namespace Py

/-- The days of a month of the Gregorian calendar. -/
def daysInMonth (year month : Nat) : Nat :=
  if month = 2 then (if (year % 4 = 0 ∧ year % 100 ≠ 0) ∨ year % 400 = 0 then 29 else 28)
  else if month = 4 ∨ month = 6 ∨ month = 9 ∨ month = 11 then 30
  else 31

/-- `datetime.date`. -/
structure Date where
  year : Nat
  month : Nat
  day : Nat
  year_bounds : 1 ≤ year ∧ year ≤ 9999
  month_bounds : 1 ≤ month ∧ month ≤ 12
  day_bounds : 1 ≤ day ∧ day ≤ daysInMonth year month
  deriving DecidableEq, Repr

namespace Date

/-- A number that grows with the date. -/
def key (d : Date) : Nat := d.year * 10000 + d.month * 100 + d.day

instance : LE Date := ⟨fun a b => a.key ≤ b.key⟩

instance : LT Date := ⟨fun a b => a.key < b.key⟩

instance (a b : Date) : Decidable (a ≤ b) := inferInstanceAs (Decidable (a.key ≤ b.key))

instance (a b : Date) : Decidable (a < b) := inferInstanceAs (Decidable (a.key < b.key))

/-- A number with zeros in front, to a width. -/
def padded (width n : Nat) : String := "".pushn '0' (width - n.repr.length) ++ n.repr

/-- `d.isoformat()`. -/
def isoformat (d : Date) : String := padded 4 d.year ++ "-" ++ padded 2 d.month ++ "-" ++ padded 2 d.day

/-- The days of the years before a year. -/
def daysBeforeYear (year : Nat) : Nat :=
  let y := year - 1
  y * 365 + y / 4 - y / 100 + y / 400

/-- `toordinal`: the days since the day before 1 January of the year 1. -/
def toOrdinal (d : Date) : Nat :=
  daysBeforeYear d.year + ((List.range (d.month - 1)).map fun m => daysInMonth d.year (m + 1)).sum + d.day

example : (⟨2026, 1, 31, by decide, by decide, by decide⟩ : Date).toOrdinal = 739647 := by decide

/-! ## Reading a date -/

/-- `date(year, month, day)`: none where the constructor raises. -/
def of? (year month day : Nat) : Option Date :=
  if h : (1 ≤ year ∧ year ≤ 9999) ∧ (1 ≤ month ∧ month ≤ 12) ∧ 1 ≤ day ∧ day ≤ daysInMonth year month then
    some ⟨year, month, day, h.1, h.2.1, h.2.2⟩
  else
    none

/-- The weekday of the first of January, 0 for a Monday. -/
def firstWeekday (year : Nat) : Nat := (daysBeforeYear year + 7) % 7

/-- The ordinal of the Monday of the first ISO week of a year. -/
def week1Monday (year : Nat) : Nat :=
  let monday := daysBeforeYear year + 1 - firstWeekday year
  if 3 < firstWeekday year then monday + 7 else monday

/-- A day of a year by its number, counted from a month on. -/
def dayOfYear? (year : Nat) : Nat → Nat → Nat → Option Date
  | 0, _, _ => none
  | months + 1, month, day =>
    if day ≤ daysInMonth year month then of? year month day
    else dayOfYear? year months (month + 1) (day - daysInMonth year month)

/-- `date.fromisocalendar(year, week, day)`: a year has a week 53 when it starts on a Thursday, or on a Wednesday if it is a leap year. -/
def ofIsoCalendar? (year week day : Nat) : Option Date :=
  if (1 ≤ year ∧ year ≤ 9999) ∧ (1 ≤ day ∧ day ≤ 7) ∧ 1 ≤ week ∧
      (week ≤ 52 ∨ week = 53 ∧ (firstWeekday year = 3 ∨ firstWeekday year = 2 ∧ daysInMonth year 2 = 29)) then
    let ordinal := week1Monday year + (week - 1) * 7 + (day - 1)
    if ordinal ≤ daysBeforeYear year then dayOfYear? (year - 1) 12 1 (ordinal - daysBeforeYear (year - 1))
    else if ordinal ≤ daysBeforeYear (year + 1) then dayOfYear? year 12 1 (ordinal - daysBeforeYear year)
    else dayOfYear? (year + 1) 12 1 (ordinal - daysBeforeYear (year + 1))
  else
    none

/-- A number of ASCII digits. -/
def number? (cs : List Char) : Option Nat :=
  if cs.all isDigitAscii then some (cs.foldl (fun n c => 10 * n + (c.toNat - 48)) 0) else none

/-- A calendar date of the texts of its parts. -/
def ofTexts? (year month day : List Char) : Option Date := do of? (← number? year) (← number? month) (← number? day)

/-- A date of the texts of its ISO year, week and weekday. -/
def ofWeekTexts? (year week day : List Char) : Option Date := do ofIsoCalendar? (← number? year) (← number? week) (← number? day)

/-- `date.fromisoformat(text)`: none for `ValueError`. A date is a calendar date or a week date, with or without its dashes; a week
date without a weekday is its Monday. -/
def fromIsoformat? (text : String) : Option Date :=
  let year := text.toList.take 4
  match text.toList.drop 4 with
  | '-' :: 'W' :: rest =>
    match rest with
    | [w, v] => ofWeekTexts? year [w, v] ['1']
    | [w, v, '-', d] => ofWeekTexts? year [w, v] [d]
    | _ => none
  | 'W' :: rest =>
    match rest with
    | [w, v] => ofWeekTexts? year [w, v] ['1']
    | [w, v, d] => ofWeekTexts? year [w, v] [d]
    | _ => none
  | '-' :: rest =>
    match rest with
    | [m, n, '-', d, e] => ofTexts? year [m, n] [d, e]
    | _ => none
  | [m, n, d, e] => ofTexts? year [m, n] [d, e]
  | _ => none

example : (fromIsoformat? "2026-W05-6").map (·.isoformat) = some "2026-01-31" := by decide +kernel

/-! ## Days before and after -/

/-- `date.fromordinal(n)`, of a number that counts from 1: by cycles of 400, 100, 4 years and 1 year. -/
def ofOrdinal? (n : Nat) : Option Date :=
  let n := n - 1
  let n400 := n / 146097
  let n := n % 146097
  let n100 := n / 36524
  let n := n % 36524
  let n4 := n / 1461
  let n := n % 1461
  let n1 := n / 365
  let n := n % 365
  let year := n400 * 400 + 1 + n100 * 100 + n4 * 4 + n1
  if n1 = 4 ∨ n100 = 4 then of? (year - 1) 12 31 else dayOfYear? year 12 1 (n + 1)

/-- `d - timedelta(days=n)`: none where it raises `OverflowError`. -/
def minusDays? (d : Date) (n : Nat) : Option Date := if n < d.toOrdinal then ofOrdinal? (d.toOrdinal - n) else none

/-- `d + timedelta(days=n)`. -/
def plusDays? (d : Date) (n : Nat) : Option Date := ofOrdinal? (d.toOrdinal + n)

/-- `d.weekday()`: 0 for a Monday. -/
def weekday (d : Date) : Nat := (d.toOrdinal + 6) % 7

example : ((of? 2024 3 1).bind fun d => d.minusDays? 1).map (·.isoformat) = some "2024-02-29" := by decide +kernel

end Date

end Py
