import Mathlib.Data.List.Infix
import Nl2Sql.Lib.Method
import Nl2Sql.Lib.Periods
import Nl2Sql.Lib.TextSplit
import Nl2Sql.Planner.Time

/-!
# The calendar law of the time grammar

What a time expression resolves to is a range of days in order: the days of a period up to today, the whole period before, the days that
an absolute date names, or the days from one to another.
-/

namespace Nl2Sql

open Py

/-- The expression that stands for a text in the grammar. -/
def UnicodeForms.token (U : UnicodeForms) (text : String) : String := (relativeAliases.get? (U.clause text)).getD (U.clause text)

/-- The expression of the period of today. -/
def thisText : Date.Period → String
  | .day => "today"
  | .week => "this week"
  | .month => "this month"
  | .year => "this year"

/-- The expression of the period before. -/
def lastText : Date.Period → String
  | .day => "yesterday"
  | .week => "last week"
  | .month => "last month"
  | .year => "last year"

/-- A text is resolved to the days from one to another. -/
def ResolvesTo (U : UnicodeForms) (text : String) (today start stop : Date) : Prop :=
  ∃ h : start ≤ stop, resolveTimeExpression U text (.date today) = some (.range ⟨start, stop, shanghai, h⟩)

/-- A text is left unresolved. -/
def Unresolved (U : UnicodeForms) (text : String) (today : Date) : Prop :=
  resolveTimeExpression U text (.date today) = some (.unresolved .unparseableTimeExpression)

/-- Digits of any script that spell a number. -/
def Spells (cs : List Char) (width n : Nat) : Prop := cs.length = width ∧ digitsNumber? cs = some n

/-- The text of a day: its year, its month and its day. -/
def DayText (text : String) (d : Date) : Prop :=
  ∃ year month day, Spells year 4 d.year ∧ Spells month 2 d.month ∧ Spells day 2 d.day ∧
    text.toList = year ++ '-' :: (month ++ '-' :: day)

/-- An absolute date, and the days it names. -/
inductive AbsoluteText : String → (Date → Prop) → Prop
  | day {text : String} {y m k : List Char} {year month day : Nat} (hy : Spells y 4 year) (hm : Spells m 2 month) (hk : Spells k 2 day)
      (h : text.toList = y ++ '-' :: (m ++ '-' :: k)) : AbsoluteText text fun d => d.year = year ∧ d.month = month ∧ d.day = day
  | month {text : String} {y m : List Char} {year month : Nat} (hy : Spells y 4 year) (hm : Spells m 2 month)
      (h : text.toList = y ++ '-' :: m) : AbsoluteText text fun d => d.year = year ∧ d.month = month
  | year {text : String} {year : Nat} (hy : Spells text.toList 4 year) : AbsoluteText text fun d => d.year = year

namespace TimeGrammarAux

open Date

/-! ## Relative periods -/

section Relative

variable {today first stop : Date}

/-- The first day of the calendar is before every day. -/
theorem least_of_ordinal (h : first.toOrdinal = 1) (d : Date) : first ≤ d := by
  have hpos := d.toOrdinal_pos
  exact toOrdinal_le_iff.mp (by omega)

/-- What the expression of the period before resolves to: nothing where the calendar has no day before the first one of this period, and
the whole period of the day before otherwise. -/
def Before (p : Period) (today first : Date) : Prop :=
  ((∀ d, first ≤ d) ∧ resolveRelative (lastText p) today = none) ∨
    ∃ start stop, resolveRelative (lastText p) today = some (start, stop) ∧ stop.toOrdinal + 1 = first.toOrdinal ∧ p.Whole start stop

theorem before_day : Before .day today today := by
  change (_ ∧ (do let previous ← today.minusDays? 1; some (previous, previous)) = _) ∨ ∃ start stop,
    (do let previous ← today.minusDays? 1; some (previous, previous)) = some (start, stop) ∧ _
  cases hprevious : today.minusDays? 1 with
  | none =>
    have hpos := today.toOrdinal_pos
    have hle := minusDays?_eq_none_iff.mp hprevious
    exact .inl ⟨least_of_ordinal (by omega), rfl⟩
  | some previous =>
    have hstop := minusDays?_eq_some_iff.mp hprevious
    exact .inr ⟨previous, previous, rfl, hstop, Period.whole_of_first (Period.first_day today) hstop (Period.first_day previous)⟩

theorem before_week (hmonday : monday? today = some first) (hfirst : Period.week.First today first) : Before .week today first := by
  have hpos := first.toOrdinal_pos
  have hstart : first.weekday = 0 := Period.weekday_first hfirst
  unfold weekday at hstart
  change (_ ∧ (do let lastMonday ← (← monday? today).minusDays? 7; some (lastMonday, ← lastMonday.plusDays? 6)) = _) ∨ ∃ start stop,
    (do let lastMonday ← (← monday? today).minusDays? 7; some (lastMonday, ← lastMonday.plusDays? 6)) = some (start, stop) ∧ _
  rw [hmonday]
  simp only [Option.bind_eq_bind, Option.bind_some]
  cases hlast : first.minusDays? 7 with
  | none =>
    have hle := minusDays?_eq_none_iff.mp hlast
    exact .inl ⟨least_of_ordinal (by omega), rfl⟩
  | some start =>
    have hordinal := minusDays?_eq_some_iff.mp hlast
    rcases Period.first_or_before first with ⟨-, hone⟩ | ⟨stop, hstop⟩
    · omega
    · have hsunday : start.plusDays? 6 = some stop := plusDays?_of_toOrdinal (by omega)
      have hweek : start.toOrdinal + stop.weekday = stop.toOrdinal := by
        unfold weekday
        omega
      refine .inr ⟨start, stop, ?_, hstop, Period.whole_of_first hfirst hstop (Period.first_week hweek)⟩
      rw [Option.bind_some, hsunday]
      rfl

theorem before_month (hsafe : safeDate today.year today.month 1 = some first) (hfirst : Period.month.First today first) :
    Before .month today first := by
  have hpos := first.toOrdinal_pos
  change (_ ∧ (do
    let firstThisMonth ← safeDate today.year today.month 1
    let lastPrevious ← firstThisMonth.minusDays? 1
    let start ← safeDate lastPrevious.year lastPrevious.month 1
    some (start, lastPrevious)) = _) ∨ ∃ start stop, (do
    let firstThisMonth ← safeDate today.year today.month 1
    let lastPrevious ← firstThisMonth.minusDays? 1
    let start ← safeDate lastPrevious.year lastPrevious.month 1
    some (start, lastPrevious)) = some (start, stop) ∧ _
  rw [hsafe]
  simp only [Option.bind_eq_bind, Option.bind_some]
  cases hlast : first.minusDays? 1 with
  | none =>
    have hle := minusDays?_eq_none_iff.mp hlast
    exact .inl ⟨least_of_ordinal (by omega), rfl⟩
  | some stop =>
    have hstop := minusDays?_eq_some_iff.mp hlast
    have hstart := of?_eq_some stop.year_bounds stop.month_bounds ⟨Nat.le_refl 1, daysInMonth_pos stop.year stop.month⟩
    refine .inr ⟨_, stop, ?_, hstop, Period.whole_of_first hfirst hstop (Period.first_month hstart)⟩
    rw [Option.bind_some, safeDate, hstart]
    rfl

theorem before_year (hsafe : safeDate today.year 1 1 = some first) (hfirst : Period.year.First today first) : Before .year today first := by
  have hbounds := today.year_bounds
  obtain ⟨hyear, hmonth, hday⟩ := of?_eq_some_iff.mp hsafe
  have hordinal : first.toOrdinal = daysBeforeYear today.year + 1 := by
    rw [toOrdinal_eq, hyear, hmonth, hday]
    rfl
  change (_ ∧ (do
    let start ← safeDate (today.year - 1) 1 1
    let stop ← safeDate (today.year - 1) 12 31
    some (start, stop)) = _) ∨ ∃ start stop, (do
    let start ← safeDate (today.year - 1) 1 1
    let stop ← safeDate (today.year - 1) 12 31
    some (start, stop)) = some (start, stop) ∧ _
  by_cases hone : today.year = 1
  · rw [hone] at hordinal ⊢
    exact .inl ⟨least_of_ordinal hordinal, rfl⟩
  · have hprevious : 1 ≤ today.year - 1 ∧ today.year - 1 ≤ 9999 := by omega
    obtain ⟨stop, hlast, hstop⟩ := ofOrdinal_lastDay hprevious
    obtain ⟨start, hstart⟩ : ∃ start, of? (today.year - 1) 1 1 = some start :=
      ⟨_, of?_eq_some hprevious ⟨Nat.le_refl 1, by omega⟩ ⟨Nat.le_refl 1, daysInMonth_pos (today.year - 1) 1⟩⟩
    have hstopYear : stop.year = today.year - 1 := (of?_eq_some_iff.mp hlast).1
    have hbefore : stop.toOrdinal + 1 = first.toOrdinal := by
      rw [hstop, hordinal, Nat.sub_add_cancel hbounds.1]
    refine .inr ⟨start, stop, ?_, hbefore, Period.whole_of_first hfirst hbefore (Period.first_year ?_)⟩
    · rw [safeDate, safeDate, hstart, hlast]
      rfl
    · rw [hstopYear]
      exact hstart

/-- The period of today, up to today, and the period before. -/
theorem resolveRelative_period (p : Period) (today : Date) :
    ∃ first, p.First today first ∧ resolveRelative (thisText p) today = some (first, today) ∧ Before p today first := by
  have hpos := today.toOrdinal_pos
  cases p with
  | day => exact ⟨today, Period.first_day today, rfl, before_day⟩
  | week =>
    obtain ⟨monday, hmonday⟩ : ∃ monday, monday? today = some monday := by
      refine Option.ne_none_iff_exists'.mp fun hnone => ?_
      have hle := minusDays?_eq_none_iff.mp hnone
      unfold weekday at hle
      omega
    have hfirst := Period.first_week (minusDays?_eq_some_iff.mp hmonday)
    refine ⟨monday, hfirst, ?_, before_week hmonday hfirst⟩
    change (do let monday ← monday? today; some (monday, today)) = _
    rw [hmonday]
    rfl
  | month =>
    have hsafe := of?_eq_some today.year_bounds today.month_bounds ⟨Nat.le_refl 1, daysInMonth_pos today.year today.month⟩
    have hfirst := Period.first_month hsafe
    refine ⟨_, hfirst, ?_, before_month hsafe hfirst⟩
    change (do let first ← safeDate today.year today.month 1; some (first, today)) = _
    rw [safeDate, hsafe]
    rfl
  | year =>
    have hsafe := of?_eq_some today.year_bounds ⟨Nat.le_refl 1, by omega⟩ ⟨Nat.le_refl 1, daysInMonth_pos today.year 1⟩
    have hfirst := Period.first_year hsafe
    refine ⟨_, hfirst, ?_, before_year hsafe hfirst⟩
    change (do let first ← safeDate today.year 1 1; some (first, today)) = _
    rw [safeDate, hsafe]
    rfl

/-- Any other expression is not relative. -/
theorem resolveRelative_eq_none {token : String} (h : ∀ p, token ≠ thisText p ∧ token ≠ lastText p) :
    resolveRelative token today = none := by
  have hday : token ≠ "today" ∧ token ≠ "yesterday" := h .day
  have hweek : token ≠ "this week" ∧ token ≠ "last week" := h .week
  have hmonth : token ≠ "this month" ∧ token ≠ "last month" := h .month
  have hyear : token ≠ "this year" ∧ token ≠ "last year" := h .year
  unfold resolveRelative
  rw [if_neg hday.1, if_neg hday.2, if_neg hweek.1, if_neg hweek.2, if_neg hmonth.1, if_neg hmonth.2, if_neg hyear.1, if_neg hyear.2]

end Relative

/-! ## Absolute dates -/

/-- A character of an absolute date. -/
def dateChar (c : Char) : Bool := (Decimal.digitValue c).isSome || c == '-'

theorem Spells.dateChar {cs : List Char} {width n : Nat} (h : Spells cs width n) : ∀ c ∈ cs, dateChar c = true := by
  intro c hc
  obtain ⟨values, hvalues, -⟩ := Option.map_eq_some_iff.mp h.2
  have hdigit : (Decimal.digitValue c).isSome = true := (mapM_eq_some_iff (d := 0).mp hvalues).1 c hc
  unfold TimeGrammarAux.dateChar
  rw [hdigit, Bool.true_or]

theorem AbsoluteText.dateChar {text : String} {days : Date → Prop} (h : AbsoluteText text days) : ∀ c ∈ text.toList, dateChar c = true := by
  have hdash : TimeGrammarAux.dateChar '-' = true := by decide
  cases h with
  | day hy hm hk h =>
    rw [h]
    exact List.forall_mem_append.mpr ⟨Spells.dateChar hy, List.forall_mem_cons.mpr ⟨hdash, List.forall_mem_append.mpr ⟨Spells.dateChar hm,
      List.forall_mem_cons.mpr ⟨hdash, Spells.dateChar hk⟩⟩⟩⟩
  | month hy hm h =>
    rw [h]
    exact List.forall_mem_append.mpr ⟨Spells.dateChar hy, List.forall_mem_cons.mpr ⟨hdash, Spells.dateChar hm⟩⟩
  | year hy => exact Spells.dateChar hy

theorem AbsoluteText.ne_empty {text : String} {days : Date → Prop} (h : AbsoluteText text days) : text ≠ "" := by
  rintro rfl
  have hlength : ("" : String).toList.length = 0 := rfl
  cases h with
  | day hy hm hk h =>
    rw [h, List.length_append, hy.1] at hlength
    omega
  | month hy hm h =>
    rw [h, List.length_append, hy.1] at hlength
    omega
  | year hy =>
    rw [hy.1] at hlength
    omega

/-- The characters of a number of some digits. -/
theorem eq_of_length_four {α : Type} {l : List α} (h : l.length = 4) : ∃ a b c d, l = [a, b, c, d] := by
  match l, h with
  | [a, b, c, d], _ => exact ⟨a, b, c, d, rfl⟩

/-- The day that a text spells is read, where there is one. -/
theorem parseDay_of_spells {text : String} {y m k : List Char} {year month day : Nat} (hy : Spells y 4 year) (hm : Spells m 2 month)
    (hk : Spells k 2 day) (h : text.toList = y ++ '-' :: (m ++ '-' :: k)) : parseDay text = of? year month day := by
  obtain ⟨hylen, hyear⟩ := hy
  obtain ⟨hmlen, hmonth⟩ := hm
  obtain ⟨hklen, hday⟩ := hk
  obtain ⟨a, b, c, e, rfl⟩ := eq_of_length_four hylen
  obtain ⟨f, g, rfl⟩ := List.length_eq_two.mp hmlen
  obtain ⟨i, j, rfl⟩ := List.length_eq_two.mp hklen
  unfold parseDay
  rw [h]
  simp only [List.cons_append, List.nil_append, Option.bind_eq_bind, hyear, hmonth, hday, Option.bind_some]
  rfl

/-- A day is read from its text and from no other. -/
theorem parseDay_eq_some_iff {text : String} {d : Date} : parseDay text = some d ↔ DayText text d := by
  constructor
  · intro h
    unfold parseDay at h
    split at h
    · rename_i a b c e m n k l hlist
      simp only [Option.bind_eq_bind, Option.bind_eq_some_iff] at h
      obtain ⟨year, hyear, month, hmonth, day, hday, hdate⟩ := h
      obtain ⟨rfl, rfl, rfl⟩ := of?_eq_some_iff.mp hdate
      exact ⟨_, _, _, ⟨rfl, hyear⟩, ⟨rfl, hmonth⟩, ⟨rfl, hday⟩, hlist⟩
    · nomatch h
  · rintro ⟨year, month, day, hyear, hmonth, hday, hlist⟩
    rw [parseDay_of_spells hyear hmonth hday hlist]
    exact of?_eq_some_iff.mpr ⟨rfl, rfl, rfl⟩

/-- A date that is not one names no day. -/
theorem of?_eq_none {year month day : Nat} (h : of? year month day = none) (d : Date) : ¬ (d.year = year ∧ d.month = month ∧ d.day = day) := by
  intro hd
  rw [of?_eq_some_iff.mpr hd] at h
  nomatch h

/-- The days from the first to the last of a month. -/
theorem between_month {a b d : Date} {year month : Nat} (ha : of? year month 1 = some a) (hb : of? year month (daysInMonth year month) = some b) :
    (a ≤ d ∧ d ≤ b) ↔ (d.year = year ∧ d.month = month) := by
  obtain ⟨hay, ham, had⟩ := of?_eq_some_iff.mp ha
  obtain ⟨hby, hbm, hbd⟩ := of?_eq_some_iff.mp hb
  have hle := daysInMonth_le year month
  have hday := d.day_bounds
  have hdayLe := hday.2.trans (daysInMonth_le _ _)
  have hmonth := d.month_bounds
  have hamonth := a.month_bounds
  change (a.year * 10000 + a.month * 100 + a.day ≤ d.year * 10000 + d.month * 100 + d.day ∧
    d.year * 10000 + d.month * 100 + d.day ≤ b.year * 10000 + b.month * 100 + b.day) ↔ _
  rw [hay, ham, had, hby, hbm, hbd]
  constructor
  · rintro ⟨hlow, hhigh⟩
    constructor <;> omega
  · rintro ⟨rfl, rfl⟩
    omega

/-- The days from the first to the last of a year. -/
theorem between_year {a b d : Date} {year : Nat} (ha : of? year 1 1 = some a) (hb : of? year 12 31 = some b) :
    (a ≤ d ∧ d ≤ b) ↔ d.year = year := by
  obtain ⟨hay, ham, had⟩ := of?_eq_some_iff.mp ha
  obtain ⟨hby, hbm, hbd⟩ := of?_eq_some_iff.mp hb
  have hday := d.day_bounds
  have hdayLe := hday.2.trans (daysInMonth_le _ _)
  have hmonth := d.month_bounds
  change (a.year * 10000 + a.month * 100 + a.day ≤ d.year * 10000 + d.month * 100 + d.day ∧
    d.year * 10000 + d.month * 100 + d.day ≤ b.year * 10000 + b.month * 100 + b.day) ↔ _
  rw [hay, ham, had, hby, hbm, hbd]
  omega

/-- An absolute date expands to the days that it names, and to nothing where it names none. -/
theorem absolutePeriod_days {text : String} {days : Date → Prop} (h : AbsoluteText text days) :
    (∃ a b, absolutePeriod text = some (a, b) ∧ a ≤ b ∧ ∀ d, (a ≤ d ∧ d ≤ b) ↔ days d) ∨
      ((∀ d, ¬ days d) ∧ absolutePeriod text = none) := by
  cases h with
  | @day y m k year month day hy hm hk h =>
    have hparse := parseDay_of_spells hy hm hk h
    have hperiod : absolutePeriod text = (parseDay text).bind fun single => some (single, single) := by
      obtain ⟨a, b, c, e, rfl⟩ := eq_of_length_four hy.1
      obtain ⟨f, g, rfl⟩ := List.length_eq_two.mp hm.1
      obtain ⟨i, j, rfl⟩ := List.length_eq_two.mp hk.1
      unfold absolutePeriod
      rw [h]
      rfl
    rw [hperiod, hparse]
    cases hdate : of? year month day with
    | none => exact .inr ⟨of?_eq_none hdate, rfl⟩
    | some single =>
      obtain ⟨rfl, rfl, rfl⟩ := of?_eq_some_iff.mp hdate
      refine .inl ⟨single, single, rfl, Nat.le_refl _, fun d => ⟨fun hd => ?_, fun hd => ?_⟩⟩
      · rw [key_injective (Nat.le_antisymm hd.2 hd.1)]
        exact ⟨rfl, rfl, rfl⟩
      · have hkey : d.key = single.key := by
          unfold key
          rw [hd.1, hd.2.1, hd.2.2]
        exact ⟨hkey.ge, hkey.le⟩
  | @month y m year month hy hm h =>
    have hperiod : absolutePeriod text = (of? year month 1).bind fun first =>
        (of? year month (daysInMonth year month)).bind fun last => some (first, last) := by
      obtain ⟨hylen, hyear⟩ := hy
      obtain ⟨hmlen, hmonth⟩ := hm
      obtain ⟨a, b, c, e, rfl⟩ := eq_of_length_four hylen
      obtain ⟨f, g, rfl⟩ := List.length_eq_two.mp hmlen
      unfold absolutePeriod
      rw [h]
      simp only [List.cons_append, List.nil_append, Option.bind_eq_bind, hyear, hmonth, Option.bind_some]
      rfl
    rw [hperiod]
    cases hfirst : of? year month 1 with
    | none =>
      refine .inr ⟨fun d hd => ?_, rfl⟩
      obtain ⟨rfl, rfl⟩ := hd
      rw [of?_eq_some d.year_bounds d.month_bounds ⟨Nat.le_refl 1, daysInMonth_pos _ _⟩] at hfirst
      nomatch hfirst
    | some first =>
      obtain ⟨rfl, rfl, -⟩ := of?_eq_some_iff.mp hfirst
      obtain ⟨last, hlast⟩ : ∃ last, of? first.year first.month (daysInMonth first.year first.month) = some last :=
        ⟨_, of?_eq_some first.year_bounds first.month_bounds ⟨daysInMonth_pos _ _, Nat.le_refl _⟩⟩
      rw [Option.bind_some, hlast, Option.bind_some]
      refine .inl ⟨first, last, rfl, ?_, fun d => between_month hfirst hlast⟩
      exact ((between_month hfirst hlast).mpr ⟨rfl, rfl⟩).2
  | @year year hy =>
    have hperiod : absolutePeriod text = (of? year 1 1).bind fun start => (of? year 12 31).bind fun stop => some (start, stop) := by
      obtain ⟨hylen, hyear⟩ := hy
      obtain ⟨a, b, c, e, hlist⟩ := eq_of_length_four hylen
      rw [hlist] at hyear
      unfold absolutePeriod
      rw [hlist]
      simp only [Option.bind_eq_bind, hyear, Option.bind_some]
      rfl
    rw [hperiod]
    cases hstart : of? year 1 1 with
    | none =>
      refine .inr ⟨fun d hd => ?_, rfl⟩
      obtain rfl := hd
      rw [of?_eq_some d.year_bounds ⟨Nat.le_refl 1, by omega⟩ ⟨Nat.le_refl 1, daysInMonth_pos _ _⟩] at hstart
      nomatch hstart
    | some start =>
      obtain ⟨rfl, -, -⟩ := of?_eq_some_iff.mp hstart
      obtain ⟨stop, hstop, -⟩ := ofOrdinal_lastDay start.year_bounds
      rw [Option.bind_some, hstop, Option.bind_some]
      refine .inl ⟨start, stop, rfl, ?_, fun d => between_year hstart hstop⟩
      exact ((between_year hstart hstop).mpr rfl).2

/-- What is expanded as an absolute date is one. -/
theorem absoluteText_of_period {text : String} {period : Date × Date} (h : absolutePeriod text = some period) :
    ∃ days, AbsoluteText text days := by
  unfold absolutePeriod at h
  split at h
  · obtain ⟨single, hparse, -⟩ := Option.bind_eq_some_iff.mp h
    obtain ⟨year, month, day, hyear, hmonth, hday, hlist⟩ := parseDay_eq_some_iff.mp hparse
    exact ⟨_, .day hyear hmonth hday hlist⟩
  · rename_i a b c e m n hlist
    obtain ⟨year, hyear, h⟩ := Option.bind_eq_some_iff.mp h
    obtain ⟨month, hmonth, -⟩ := Option.bind_eq_some_iff.mp h
    exact ⟨_, .month (y := [a, b, c, e]) (m := [m, n]) ⟨rfl, hyear⟩ ⟨rfl, hmonth⟩ hlist⟩
  · rename_i a b c e hlist
    obtain ⟨year, hyear, -⟩ := Option.bind_eq_some_iff.mp h
    exact ⟨_, .year ⟨by rw [hlist]; rfl, by rw [hlist]; exact hyear⟩⟩
  · nomatch h

theorem absolutePeriod_ordered {text : String} {a b : Date} (h : absolutePeriod text = some (a, b)) : a ≤ b := by
  obtain ⟨days, htext⟩ := absoluteText_of_period h
  rcases absolutePeriod_days htext with ⟨a', b', hperiod, hle, -⟩ | ⟨-, hnone⟩
  · rw [hperiod] at h
    cases h
    exact hle
  · rw [hnone] at h
    nomatch h

/-! ## Ranges -/

/-- A text contains another where that is a part of it. -/
theorem containsText_iff {needle s : String} : containsText needle s = true ↔ needle.toList <:+: s.toList := by
  unfold containsText
  simp only [List.any_eq_true, List.mem_tails, List.isPrefixOf_iff_prefix]
  constructor
  · rintro ⟨rest, hsuffix, hstart⟩
    exact hstart.isInfix.trans hsuffix.isInfix
  · rintro ⟨before, after, h⟩
    exact ⟨needle.toList ++ after, ⟨before, by rw [← h, List.append_assoc]⟩, List.prefix_append _ _⟩

/-- A delimiter is not empty, has no character of a date and no white space, and shares no character with another. -/
theorem delimiter_spec {delimiter : String} (h : delimiter ∈ rangeDelimiters) :
    delimiter ≠ "" ∧ (∀ c ∈ delimiter.toList, dateChar c = false ∧ isSpace c = false) ∧
      ∀ other ∈ rangeDelimiters, ∀ c ∈ other.toList, c ∈ delimiter.toList → other = delimiter := by
  have hall : ∀ delimiter ∈ rangeDelimiters, delimiter ≠ "" ∧
      (delimiter.toList.all fun c => decide (dateChar c = false ∧ isSpace c = false)) = true ∧
      ∀ other ∈ rangeDelimiters, (other.toList.all fun c => decide (c ∈ delimiter.toList → other = delimiter)) = true := by
    decide +kernel
  obtain ⟨hne, hplain, hshared⟩ := hall delimiter h
  refine ⟨hne, fun c hc => of_decide_eq_true (List.all_eq_true.mp hplain c hc), fun other hother c hc => ?_⟩
  exact of_decide_eq_true (List.all_eq_true.mp (hshared other hother) c hc)

/-- Text of the characters of a date contains no delimiter. -/
theorem not_containsText {token delimiter : String} (htoken : ∀ c ∈ token.toList, dateChar c = true) (h : delimiter ∈ rangeDelimiters) :
    containsText delimiter token = false := by
  obtain ⟨hne, hplain, -⟩ := delimiter_spec h
  refine Bool.eq_false_iff.mpr fun hcontains => ?_
  obtain ⟨c, hc⟩ := List.exists_mem_of_ne_nil _ fun hnil => hne (String.toList_eq_nil_iff.mp hnil)
  have hdate := htoken c ((containsText_iff.mp hcontains).subset hc)
  rw [(hplain c hc).1] at hdate
  cases hdate

/-- The end of a range has no character of a delimiter. -/
theorem dayText_disjoint {part delimiter : String} {d : Date} (hpart : DayText (strip part) d) (h : delimiter ∈ rangeDelimiters) :
    ∀ c ∈ part.toList, c ∉ delimiter.toList := by
  obtain ⟨year, month, day, hyear, hmonth, hday, hlist⟩ := hpart
  intro c hc hdelimiter
  obtain ⟨hdate, hspace⟩ := (delimiter_spec h).2.1 c hdelimiter
  rcases mem_strip_or hc with hstripped | hblank
  · rw [AbsoluteText.dateChar (.day hyear hmonth hday hlist) c hstripped] at hdate
    cases hdate
  · rw [hblank] at hspace
    cases hspace

/-- A text is split at its delimiter into the ends of a range. -/
theorem splitRange_of_days {first delimiter second : String} {start stop : Date} (h : delimiter ∈ rangeDelimiters)
    (hfirst : DayText (strip first) start) (hsecond : DayText (strip second) stop) :
    splitRange (first ++ delimiter ++ second) = some (strip first, strip second) := by
  obtain ⟨hne, -, hdisjoint⟩ := delimiter_spec h
  have hown : containsText delimiter (first ++ delimiter ++ second) = true := by
    refine containsText_iff.mpr ⟨first.toList, second.toList, ?_⟩
    rw [String.toList_append, String.toList_append]
  have hfind : rangeDelimiters.find? (fun delimiter' => containsText delimiter' (first ++ delimiter ++ second)) = some delimiter := by
    cases hfound : rangeDelimiters.find? (fun delimiter' => containsText delimiter' (first ++ delimiter ++ second)) with
    | none => exact absurd hown (List.find?_eq_none.mp hfound delimiter h)
    | some found =>
      have hmem := List.mem_of_find?_eq_some hfound
      have hcontains := List.find?_some hfound
      obtain ⟨c, hc⟩ := List.exists_mem_of_ne_nil _ fun hnil => (delimiter_spec hmem).1 (String.toList_eq_nil_iff.mp hnil)
      have hin := (containsText_iff.mp hcontains).subset hc
      rw [String.toList_append, String.toList_append, List.mem_append, List.mem_append] at hin
      rcases hin with (hin | hin) | hin
      · exact absurd hc (dayText_disjoint hfirst hmem c hin)
      · rw [hdisjoint found hmem c hc hin]
      · exact absurd hc (dayText_disjoint hsecond hmem c hin)
  unfold splitRange
  rw [hfind]
  dsimp only
  rw [splitText_pair hne (dayText_disjoint hfirst h) (dayText_disjoint hsecond h)]

/-- A text with a delimiter is a range exactly where it is two valid days in order around one. -/
theorem resolveRange_of_delimiter {token : String} (h : ∃ delimiter ∈ rangeDelimiters, containsText delimiter token = true)
    {start stop : Date} :
    resolveRange token = some (start, stop) ↔ ∃ delimiter ∈ rangeDelimiters, ∃ first second, token = first ++ delimiter ++ second ∧
      DayText (strip first) start ∧ DayText (strip second) stop ∧ start ≤ stop := by
  constructor
  · intro hresolved
    unfold resolveRange at hresolved
    split at hresolved
    · obtain ⟨days, htext⟩ := absoluteText_of_period hresolved
      obtain ⟨delimiter, hmem, hcontains⟩ := h
      rw [not_containsText (AbsoluteText.dateChar htext) hmem] at hcontains
      cases hcontains
    · rename_i first second hsplit
      unfold splitRange at hsplit
      split at hsplit
      · cases hsplit
      · rename_i delimiter hfind
        have hmem := List.mem_of_find?_eq_some hfind
        split at hsplit
        · rename_i before after hparts
          cases hsplit
          obtain ⟨firstDate, hfirst, hresolved⟩ := Option.bind_eq_some_iff.mp hresolved
          obtain ⟨secondDate, hsecond, hresolved⟩ := Option.bind_eq_some_iff.mp hresolved
          split at hresolved
          · cases hresolved
          · rename_i hordered
            cases hresolved
            exact ⟨delimiter, hmem, before, after, eq_of_splitText_pair (delimiter_spec hmem).1 hparts, parseDay_eq_some_iff.mp hfirst,
              parseDay_eq_some_iff.mp hsecond, Nat.not_lt.mp hordered⟩
        · cases hsplit
  · rintro ⟨delimiter, hmem, first, second, rfl, hfirst, hsecond, hle⟩
    unfold resolveRange
    rw [splitRange_of_days hmem hfirst hsecond]
    simp only [parseDay_eq_some_iff.mpr hfirst, parseDay_eq_some_iff.mpr hsecond, Option.bind_eq_bind, Option.bind_some]
    exact if_neg (Nat.not_lt.mpr hle)

/-! ## Expressions -/

/-- A relative expression has a character that no date has, contains no delimiter, and is no range. -/
theorem relative_spec (p : Period) : ∀ token ∈ [thisText p, lastText p], (∃ c ∈ token.toList, dateChar c = false) ∧
    (∀ delimiter ∈ rangeDelimiters, containsText delimiter token = false) ∧ resolveRange token = none ∧ token ≠ "" := by
  have hall : ∀ token ∈ [thisText p, lastText p], (token.toList.any fun c => decide (dateChar c = false)) = true ∧
      (∀ delimiter ∈ rangeDelimiters, containsText delimiter token = false) ∧ resolveRange token = none ∧ token ≠ "" := by
    cases p <;> decide +kernel
  intro token htoken
  obtain ⟨hany, hrest⟩ := hall token htoken
  obtain ⟨c, hc, hdate⟩ := List.any_eq_true.mp hany
  exact ⟨⟨c, hc, of_decide_eq_true hdate⟩, hrest⟩

/-- An expression that is not relative is an absolute date or a range. -/
theorem periodFor_eq_resolveRange {token : String} {today : Date} (h : ∀ p, token ≠ thisText p ∧ token ≠ lastText p) :
    periodFor token today = resolveRange token := by
  unfold periodFor
  rw [resolveRelative_eq_none h]

/-- An absolute date contains no delimiter and is not relative. -/
theorem periodFor_absolute {token : String} {days : Date → Prop} {today : Date} (h : AbsoluteText token days) :
    periodFor token today = absolutePeriod token := by
  have hchars := AbsoluteText.dateChar h
  have hrelative : ∀ p, token ≠ thisText p ∧ token ≠ lastText p := by
    have hdistinct : ∀ p, ∀ other ∈ [thisText p, lastText p], token ≠ other := by
      rintro p other hother rfl
      obtain ⟨⟨c, hc, hplain⟩, -⟩ := relative_spec p token hother
      rw [hchars c hc] at hplain
      cases hplain
    exact fun p => ⟨hdistinct p _ List.mem_cons_self, hdistinct p _ (List.mem_cons_of_mem _ List.mem_cons_self)⟩
  have hnone : rangeDelimiters.find? (fun delimiter => containsText delimiter token) = none :=
    List.find?_eq_none.mpr fun delimiter hmem => Bool.eq_false_iff.mp (not_containsText hchars hmem)
  rw [periodFor_eq_resolveRange hrelative, resolveRange, splitRange, hnone]

/-- An expression with a delimiter is not relative. -/
theorem periodFor_delimiter {token : String} {today : Date} (h : ∃ delimiter ∈ rangeDelimiters, containsText delimiter token = true) :
    periodFor token today = resolveRange token := by
  obtain ⟨delimiter, hmem, hcontains⟩ := h
  have hdistinct : ∀ p, ∀ other ∈ [thisText p, lastText p], token ≠ other := by
    rintro p other hother rfl
    rw [(relative_spec p token hother).2.1 delimiter hmem] at hcontains
    cases hcontains
  exact periodFor_eq_resolveRange fun p => ⟨hdistinct p _ List.mem_cons_self, hdistinct p _ (List.mem_cons_of_mem _ List.mem_cons_self)⟩

/-- The days of an expression are in order. -/
theorem periodFor_ordered {token : String} {today a b : Date} (h : periodFor token today = some (a, b)) : a ≤ b := by
  unfold periodFor at h
  split at h
  · rename_i period hrelative
    cases h
    by_cases hother : ∀ p, token ≠ thisText p ∧ token ≠ lastText p
    · rw [resolveRelative_eq_none hother] at hrelative
      nomatch hrelative
    · obtain ⟨p, hp⟩ := not_forall.mp hother
      obtain ⟨first, hfirst, hthis, hbefore⟩ := resolveRelative_period p today
      rcases not_and_or.mp hp with hp | hp
      · rw [not_not.mp hp, hthis] at hrelative
        cases hrelative
        exact hfirst.least today (Period.Same.refl p today)
      · rw [not_not.mp hp] at hrelative
        rcases hbefore with ⟨-, hnone⟩ | ⟨start, stop, hlast, -, hwhole⟩
        · rw [hnone] at hrelative
          nomatch hrelative
        · rw [hlast] at hrelative
          cases hrelative
          exact ((hwhole b).mpr (Period.Same.refl p b)).1
  · unfold resolveRange at h
    split at h
    · exact absolutePeriod_ordered h
    · obtain ⟨firstDate, -, h⟩ := Option.bind_eq_some_iff.mp h
      obtain ⟨secondDate, -, h⟩ := Option.bind_eq_some_iff.mp h
      split at h
      · nomatch h
      · rename_i hordered
        cases h
        exact Nat.not_lt.mp hordered

section Resolution

variable {U : UnicodeForms} {text : String} {today start stop : Date}

/-- Only the empty text stands for the empty expression. -/
theorem token_eq_empty_iff : U.token text = "" ↔ U.clause text = "" := by
  have hvalues : ∀ value ∈ relativeAliases.values, value ≠ "" := by decide +kernel
  unfold UnicodeForms.token
  constructor
  · intro h
    cases halias : relativeAliases.get? (U.clause text) with
    | none =>
      rw [halias] at h
      exact h
    | some value =>
      rw [halias] at h
      exact absurd h (hvalues value (Dict.mem_values_iff.mpr ⟨_, halias⟩))
  · intro h
    rw [h]
    rfl

/-- The resolution of an expression: its days, which the range of a plan takes, or none. -/
theorem resolveTimeExpression_eq (hne : U.token text ≠ "") :
    resolveTimeExpression U text (.date today) =
      match periodFor (U.token text) today with
      | none => some (.unresolved .unparseableTimeExpression)
      | some (a, b) => (TimeRange.of? a b).map .range := by
  have hclause : U.clause text ≠ "" := fun hempty => hne (token_eq_empty_iff.mpr hempty)
  rw [resolveTimeExpression, resolveExpression, UnicodeForms.token]
  simp only [hclause, if_false] <;> rfl

theorem unresolved_of_none (hne : U.token text ≠ "") (h : periodFor (U.token text) today = none) : Unresolved U text today := by
  unfold Unresolved
  rw [resolveTimeExpression_eq hne, h]

/-- A text is resolved to the days of its expression. -/
theorem resolvesTo_iff (hne : U.token text ≠ "") :
    ResolvesTo U text today start stop ↔ periodFor (U.token text) today = some (start, stop) := by
  unfold ResolvesTo
  rw [resolveTimeExpression_eq hne]
  constructor
  · rintro ⟨hle, h⟩
    split at h
    · nomatch h
    · rename_i a b hperiod
      have hab := periodFor_ordered hperiod
      rw [TimeRange.of?, dif_pos hab] at h
      cases h
      exact hperiod
  · intro h
    have hle := periodFor_ordered h
    refine ⟨hle, ?_⟩
    rw [h]
    dsimp only
    rw [TimeRange.of?, dif_pos hle]
    rfl

end Resolution

end TimeGrammarAux

open TimeGrammarAux

/-- The calendar law of the time grammar. Whatever the text and the clock, a range of days in order or a reason is returned. The expression
of the period of today resolves to the days from its first one to today; that of the period before to all of its days, of which the last is
the day before this period, and is unresolved exactly where this period starts with the first day of the calendar. An absolute date resolves
to the days it names, and is unresolved where it names none. And an expression with a delimiter resolves to the days from one to another
exactly where these are two valid days in order around a delimiter. -/
theorem calendar_law (U : UnicodeForms) (text : String) :
    (∀ clock, ∃ resolved, resolveTimeExpression U text clock = some resolved ∧
      ∀ range, resolved = .range range → range.start ≤ range.stop) ∧
    (∀ (today : Date) (p : Date.Period), ∃ first, p.First today first ∧ (p = .week → first.weekday = 0) ∧
      (U.token text = thisText p → ResolvesTo U text today first today) ∧
      (U.token text = lastText p → ((∀ d, first ≤ d) ∧ Unresolved U text today) ∨
        ∃ start stop, ResolvesTo U text today start stop ∧ stop.toOrdinal + 1 = first.toOrdinal ∧ p.Whole start stop)) ∧
    (∀ (today : Date) (days : Date → Prop), AbsoluteText (U.token text) days →
      (∃ start stop, ResolvesTo U text today start stop ∧ ∀ d, (start ≤ d ∧ d ≤ stop) ↔ days d) ∨
        ((∀ d, ¬ days d) ∧ Unresolved U text today)) ∧
    ∀ today : Date, (∃ delimiter ∈ rangeDelimiters, containsText delimiter (U.token text) = true) →
      (∀ start stop, ResolvesTo U text today start stop ↔ ∃ delimiter ∈ rangeDelimiters, ∃ first second,
        U.token text = first ++ delimiter ++ second ∧ DayText (strip first) start ∧ DayText (strip second) stop ∧ start ≤ stop) ∧
      (Unresolved U text today ∨ ∃ start stop, ResolvesTo U text today start stop) := by
  refine ⟨fun clock => ?_, fun today p => ?_, fun today days habsolute => ?_, fun today hdelimiter => ?_⟩
  · cases clock with
    | invalidClock => exact ⟨.unresolved .invalidClock, rfl, fun _ h => nomatch h⟩
    | invalidTimezone => exact ⟨.unresolved .invalidTimezone, rfl, fun _ h => nomatch h⟩
    | date today =>
      have hsome : ∃ resolved, resolveTimeExpression U text (.date today) = some resolved := by
        by_cases hempty : U.token text = ""
        · refine ⟨.unresolved .unsupportedTimeExpression, ?_⟩
          rw [resolveTimeExpression, resolveExpression]
          simp only [token_eq_empty_iff.mp hempty, if_true]
        · cases hperiod : periodFor (U.token text) today with
          | none => exact ⟨_, unresolved_of_none hempty hperiod⟩
          | some period =>
            obtain ⟨hle, h⟩ := (resolvesTo_iff hempty).mpr hperiod
            exact ⟨.range ⟨period.1, period.2, shanghai, hle⟩, h⟩
      obtain ⟨resolved, h⟩ := hsome
      exact ⟨resolved, h, fun range _ => range.ordered⟩
  · obtain ⟨first, hfirst, hthis, hbefore⟩ := resolveRelative_period p today
    refine ⟨first, hfirst, fun hweek => ?_, fun htoken => ?_, fun htoken => ?_⟩
    · subst hweek
      exact Date.Period.weekday_first hfirst
    · have hne : U.token text ≠ "" := htoken ▸ (relative_spec p _ List.mem_cons_self).2.2.2
      rw [resolvesTo_iff hne, htoken, periodFor, hthis]
    · obtain ⟨-, -, hrange, hempty⟩ := relative_spec p _ (List.mem_cons_of_mem _ List.mem_cons_self)
      have hne : U.token text ≠ "" := htoken ▸ hempty
      rcases hbefore with ⟨hleast, hnone⟩ | ⟨start, stop, hlast, hstop, hwhole⟩
      · refine .inl ⟨hleast, unresolved_of_none hne ?_⟩
        rw [htoken, periodFor, hnone]
        exact hrange
      · refine .inr ⟨start, stop, (resolvesTo_iff hne).mpr ?_, hstop, hwhole⟩
        rw [htoken, periodFor, hlast]
  · have hne : U.token text ≠ "" := AbsoluteText.ne_empty habsolute
    rcases absolutePeriod_days habsolute with ⟨start, stop, hperiod, -, hdays⟩ | ⟨hnone, hperiod⟩
    · refine .inl ⟨start, stop, (resolvesTo_iff hne).mpr ?_, hdays⟩
      rw [periodFor_absolute habsolute, hperiod]
    · refine .inr ⟨hnone, unresolved_of_none hne ?_⟩
      rw [periodFor_absolute habsolute, hperiod]
  · have hne : U.token text ≠ "" := by
      intro hempty
      obtain ⟨delimiter, hmem, hcontains⟩ := hdelimiter
      rw [hempty, containsText_iff] at hcontains
      exact (delimiter_spec hmem).1 (String.toList_eq_nil_iff.mp (List.infix_nil.mp hcontains))
    refine ⟨fun start stop => ?_, ?_⟩
    · rw [resolvesTo_iff hne, periodFor_delimiter hdelimiter]
      exact resolveRange_of_delimiter hdelimiter
    · cases hperiod : periodFor (U.token text) today with
      | none => exact .inl (unresolved_of_none hne hperiod)
      | some period => exact .inr ⟨_, _, (resolvesTo_iff hne).mpr hperiod⟩

end Nl2Sql
