import Nl2Sql.Engine.Decision

/-!
# The time grammar of the deterministic planner

`orchestration/deterministic_query_plan.py`, `resolve_time_expression`: a closed grammar of relative periods, days, months, years and
ranges of days. Current periods end on the day of the clock and previous periods are whole; nothing is defaulted. What the grammar does
not resolve is an unresolved time with a reason. Unicode's NFKC and case folding are parameters; the clock is known by what one sample
of it gives.
-/

namespace Nl2Sql

open Py

/-- `unicodedata.normalize("NFKC", ...)` and `str.casefold`. -/
structure UnicodeForms where
  nfkc : String → String
  casefold : String → String

/-- `_normalize`, and `normalize_label`. -/
def UnicodeForms.normalize (U : UnicodeForms) (value : String) : String :=
  " ".intercalate (words (U.casefold (strip (U.nfkc value))))

/-- The text of a time clause: an underscore stands for a space. -/
def UnicodeForms.clause (U : UnicodeForms) (value : String) : String :=
  String.ofList ((U.normalize value).toList.map fun c => if c = '_' then ' ' else c)

/-- What one sample of the clock gives: the local date in Shanghai, or no usable instant. -/
inductive ClockReading where
  | date (current : Date)
  | invalidClock
  | invalidTimezone
  deriving DecidableEq

/-- Why a time is not resolved. -/
inductive UnresolvedTime where
  | unsupportedTimeExpression
  | invalidClock
  | invalidTimezone
  | unparseableTimeExpression
  | authoritativeDateUnavailable
  | authoritativeWindowUnavailable
  deriving DecidableEq, Repr

/-- The text of a reason. -/
def UnresolvedTime.reason : UnresolvedTime → String
  | .unsupportedTimeExpression => "unsupported_time_expression"
  | .invalidClock => "invalid_clock"
  | .invalidTimezone => "invalid_timezone"
  | .unparseableTimeExpression => "unparseable_time_expression"
  | .authoritativeDateUnavailable => "authoritative_date_unavailable"
  | .authoritativeWindowUnavailable => "authoritative_window_unavailable"

/-- A resolved range of days, or the reason there is none. -/
inductive ResolvedTime where
  | range (timeRange : TimeRange)
  | unresolved (reason : UnresolvedTime)
  deriving DecidableEq

/-- The time zone of every time range of the planner. -/
def shanghai : BoundedText 1 128 := ⟨"Asia/Shanghai", shanghai_length⟩

/-- `TimeRange(start=..., end=..., timezone="Asia/Shanghai")`: none where the model refuses it. -/
def TimeRange.of? (start stop : Date) : Option TimeRange := if h : start ≤ stop then some ⟨start, stop, shanghai, h⟩ else none

/-- `_RANGE_DELIMITERS`. -/
def rangeDelimiters : List String := ["..", "~", "至", "到", ",", "、"]

/-- `_RELATIVE_ALIASES`. -/
def relativeAliases : Dict String String :=
  Dict.ofList
    [("今天", "today"), ("昨天", "yesterday"), ("本周", "this week"), ("上周", "last week"), ("本月", "this month"),
      ("上月", "last month"), ("今年", "this year"), ("去年", "last year")]

/-! ## Absolute dates -/

/-- A number of decimal digits of any script: `int` of a full match of `\d{n}`. -/
def digitsNumber? (cs : List Char) : Option Nat := (cs.mapM Decimal.digitValue).map Decimal.digitsToNat

/-- `_safe_date`. -/
def safeDate (year month day : Nat) : Option Date := Date.of? year month day

/-- `_parse_day`: a full match of `(\d{4})-(\d{2})-(\d{2})`. -/
def parseDay (text : String) : Option Date :=
  match text.toList with
  | [a, b, c, d, '-', e, f, '-', g, h] => do
    safeDate (← digitsNumber? [a, b, c, d]) (← digitsNumber? [e, f]) (← digitsNumber? [g, h])
  | _ => none

/-- `_absolute_period`: a day is that day, a month the whole month and a year the whole year. -/
def absolutePeriod (text : String) : Option (Date × Date) :=
  match text.toList with
  | [_, _, _, _, '-', _, _, '-', _, _] => do
    let single ← parseDay text
    some (single, single)
  | [a, b, c, d, '-', e, f] => do
    let year ← digitsNumber? [a, b, c, d]
    let month ← digitsNumber? [e, f]
    let first ← safeDate year month 1
    let last ← safeDate year month (daysInMonth year month)
    some (first, last)
  | [a, b, c, d] => do
    let year ← digitsNumber? [a, b, c, d]
    let start ← safeDate year 1 1
    let stop ← safeDate year 12 31
    some (start, stop)
  | _ => none

/-! ## Relative periods and ranges -/

/-- `_monday`. -/
def monday? (value : Date) : Option Date := value.minusDays? value.weekday

/-- `_resolve_relative`: none also where the calendar ends. -/
def resolveRelative (token : String) (current : Date) : Option (Date × Date) :=
  if token = "today" then some (current, current)
  else if token = "yesterday" then do
    let previous ← current.minusDays? 1
    some (previous, previous)
  else if token = "this week" then do
    let monday ← monday? current
    some (monday, current)
  else if token = "last week" then do
    let lastMonday ← (← monday? current).minusDays? 7
    some (lastMonday, ← lastMonday.plusDays? 6)
  else if token = "this month" then do
    let first ← safeDate current.year current.month 1
    some (first, current)
  else if token = "last month" then do
    let firstThisMonth ← safeDate current.year current.month 1
    let lastPrevious ← firstThisMonth.minusDays? 1
    let first ← safeDate lastPrevious.year lastPrevious.month 1
    some (first, lastPrevious)
  else if token = "this year" then do
    let first ← safeDate current.year 1 1
    some (first, current)
  else if token = "last year" then do
    let start ← safeDate (current.year - 1) 1 1
    let stop ← safeDate (current.year - 1) 12 31
    some (start, stop)
  else none

/-- `_split_range`: the parts around the first delimiter of the table the text contains, if it contains it once. -/
def splitRange (token : String) : Option (String × String) :=
  match rangeDelimiters.find? fun delimiter => containsText delimiter token with
  | none => none
  | some delimiter =>
    match splitText delimiter token with
    | [first, second] => some (strip first, strip second)
    | _ => none

/-- `_resolve_range`. -/
def resolveRange (token : String) : Option (Date × Date) :=
  match splitRange token with
  | none => absolutePeriod token
  | some (first, second) => do
    let firstDate ← parseDay first
    let secondDate ← parseDay second
    if secondDate < firstDate then none else some (firstDate, secondDate)

/-- `_period_for`. -/
def periodFor (token : String) (current : Date) : Option (Date × Date) :=
  match resolveRelative token current with
  | some period => some period
  | none => resolveRange token

/-- `_resolve_expression`. The outer none is an exception of the model `TimeRange`. -/
def resolveExpression (U : UnicodeForms) (text : String) (current : Date) : Option ResolvedTime :=
  let clause := U.clause text
  if clause = "" then some (.unresolved .unsupportedTimeExpression)
  else
    match periodFor ((relativeAliases.get? clause).getD clause) current with
    | none => some (.unresolved .unparseableTimeExpression)
    | some (start, stop) => (TimeRange.of? start stop).map .range

/-- `resolve_time_expression`, with the time zone of Shanghai. -/
def resolveTimeExpression (U : UnicodeForms) (text : String) (clock : ClockReading) : Option ResolvedTime :=
  match clock with
  | .invalidClock => some (.unresolved .invalidClock)
  | .invalidTimezone => some (.unresolved .invalidTimezone)
  | .date current => resolveExpression U text current

/-- Text that is its own normal form: ASCII text in lower case. -/
def plainForms : UnicodeForms := ⟨id, lower⟩

example : (resolveTimeExpression plainForms "Last_Week" (.date ⟨2026, 9, 20, by decide, by decide, by decide⟩)).map
    (fun | .range r => (r.start.isoformat, r.stop.isoformat) | .unresolved u => (u.reason, "")) =
    some ("2026-09-07", "2026-09-13") := by decide +kernel

/-- `_carrier_range`: the fixed pair of days that stands where no time is resolved. -/
def carrierRange : TimeRange :=
  ⟨⟨1970, 1, 1, by decide, by decide, by decide⟩, ⟨1970, 1, 1, by decide, by decide, by decide⟩, shanghai, Nat.le_refl _⟩

end Nl2Sql
