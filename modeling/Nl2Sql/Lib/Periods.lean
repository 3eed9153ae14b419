import Nl2Sql.Lib.Calendar

/-!
# Calendar periods

Days, weeks from Monday, months and years divide the calendar into periods of consecutive days. Where a period does not start with the
first day of the calendar, the days before it that belong to the period of the day just before it are a whole period.
-/

namespace Py

namespace Date

/-- A kind of period. -/
inductive Period where
  | day | week | month | year
  deriving DecidableEq, Repr

namespace Period

/-- Two days are in one period. The first day of the calendar is a Monday. -/
def Same : Period → Date → Date → Prop
  | .day, a, b => a = b
  | .week, a, b => (a.toOrdinal - 1) / 7 = (b.toOrdinal - 1) / 7
  | .month, a, b => a.year = b.year ∧ a.month = b.month
  | .year, a, b => a.year = b.year

/-- The first day of the period of a day. -/
structure First (p : Period) (d first : Date) : Prop where
  same : p.Same first d
  least : ∀ d', p.Same d' d → first ≤ d'

/-- The days from one to another are one whole period. -/
def Whole (p : Period) (start stop : Date) : Prop := ∀ d, (start ≤ d ∧ d ≤ stop) ↔ p.Same d stop

theorem Same.refl (p : Period) (a : Date) : p.Same a a := by
  cases p with
  | month => exact ⟨rfl, rfl⟩
  | _ => rfl

theorem Same.symm {p : Period} {a b : Date} (h : p.Same a b) : p.Same b a := by
  cases p with
  | month => exact ⟨Eq.symm h.1, Eq.symm h.2⟩
  | _ => exact Eq.symm h

theorem Same.trans {p : Period} {a b c : Date} (hab : p.Same a b) (hbc : p.Same b c) : p.Same a c := by
  cases p with
  | month => exact ⟨Eq.trans hab.1 hbc.1, Eq.trans hab.2 hbc.2⟩
  | _ => exact Eq.trans hab hbc

/-- Days between two days of one period are in it. -/
theorem Same.between {p : Period} {a b c : Date} (hac : p.Same a c) (hab : a ≤ b) (hbc : b ≤ c) : p.Same b c := by
  have hkey : a.year * 10000 + a.month * 100 + a.day ≤ b.year * 10000 + b.month * 100 + b.day := hab
  have hkey' : b.year * 10000 + b.month * 100 + b.day ≤ c.year * 10000 + c.month * 100 + c.day := hbc
  have ha := a.day_bounds.2.trans (daysInMonth_le _ _)
  have hb := b.day_bounds.2.trans (daysInMonth_le _ _)
  have hc := c.day_bounds.2.trans (daysInMonth_le _ _)
  have hma := a.month_bounds
  have hmb := b.month_bounds
  have hmc := c.month_bounds
  cases p with
  | day =>
    obtain rfl : a = c := hac
    exact key_injective (Nat.le_antisymm hbc hab)
  | week =>
    have hlow := toOrdinal_le_iff.mpr hab
    have hhigh := toOrdinal_le_iff.mpr hbc
    unfold Same at hac ⊢
    omega
  | month =>
    obtain ⟨hyear, hmonth⟩ := hac
    constructor <;> omega
  | year =>
    have hyear : a.year = c.year := hac
    change b.year = c.year
    omega

/-! ## The first day of a period -/

theorem first_day (d : Date) : Period.day.First d d := ⟨rfl, fun _ h => h ▸ Nat.le_refl _⟩

/-- The Monday of a day. -/
theorem first_week {d monday : Date} (h : monday.toOrdinal + d.weekday = d.toOrdinal) : Period.week.First d monday := by
  have hpos := monday.toOrdinal_pos
  unfold weekday at h
  refine ⟨?_, fun d' hd' => toOrdinal_le_iff.mp ?_⟩
  · change (monday.toOrdinal - 1) / 7 = (d.toOrdinal - 1) / 7
    omega
  · have hsame : (d'.toOrdinal - 1) / 7 = (d.toOrdinal - 1) / 7 := hd'
    have hpos' := d'.toOrdinal_pos
    omega

theorem first_month {d first : Date} (h : of? d.year d.month 1 = some first) : Period.month.First d first := by
  obtain ⟨hyear, hmonth, hday⟩ := of?_eq_some_iff.mp h
  refine ⟨⟨hyear, hmonth⟩, fun d' hd' => ?_⟩
  obtain ⟨hyear', hmonth'⟩ : d'.year = d.year ∧ d'.month = d.month := hd'
  change first.year * 10000 + first.month * 100 + first.day ≤ d'.year * 10000 + d'.month * 100 + d'.day
  have hpos := d'.day_bounds.1
  omega

theorem first_year {d first : Date} (h : of? d.year 1 1 = some first) : Period.year.First d first := by
  obtain ⟨hyear, hmonth, hday⟩ := of?_eq_some_iff.mp h
  refine ⟨hyear, fun d' hd' => ?_⟩
  have hyear' : d'.year = d.year := hd'
  change first.year * 10000 + first.month * 100 + first.day ≤ d'.year * 10000 + d'.month * 100 + d'.day
  have hpos := d'.day_bounds.1
  have hmonth' := d'.month_bounds.1
  omega

/-- A week starts with a Monday. -/
theorem weekday_first {d first : Date} (h : Period.week.First d first) : first.weekday = 0 := by
  have hpos := d.toOrdinal_pos
  have hmax := d.toOrdinal_le_max
  obtain ⟨monday, -, hmonday⟩ := ofOrdinal?_spec (n := (d.toOrdinal - 1) / 7 * 7 + 1) (by omega) (by omega)
  have hsame : Period.week.Same monday d := by
    change (monday.toOrdinal - 1) / 7 = (d.toOrdinal - 1) / 7
    omega
  have hle := toOrdinal_le_iff.mpr (h.least monday hsame)
  have hfirst : (first.toOrdinal - 1) / 7 = (d.toOrdinal - 1) / 7 := h.same
  have hfirstPos := first.toOrdinal_pos
  unfold weekday
  omega

/-! ## The period before -/

/-- The days of the period of the day before a period, up to that day, are all of that period. -/
theorem whole_of_first {p : Period} {d first start stop : Date} (hfirst : p.First d first) (hstop : stop.toOrdinal + 1 = first.toOrdinal)
    (hstart : p.First stop start) : p.Whole start stop := by
  intro d'
  constructor
  · rintro ⟨hlow, hhigh⟩
    exact hstart.same.between hlow hhigh
  · intro hsame
    refine ⟨hstart.least d' hsame, ?_⟩
    by_contra hlater
    -- the first day of the later period would be in the earlier one
    have hbefore : stop ≤ first := toOrdinal_le_iff.mp (by omega)
    have hafter : first ≤ d' := by
      have hlt : stop.toOrdinal < d'.toOrdinal := by
        rw [← not_le, toOrdinal_le_iff]
        exact hlater
      exact toOrdinal_le_iff.mp (by omega)
    have hin : p.Same first d' := hsame.symm.between hbefore hafter
    have hleast : first ≤ stop := hfirst.least stop (hsame.symm.trans (hin.symm.trans hfirst.same))
    have hle := toOrdinal_le_iff.mpr hleast
    omega

/-- A period starts with the first day of the calendar, or there is a day before it. -/
theorem first_or_before (first : Date) : (∀ d, first ≤ d) ∧ first.toOrdinal = 1 ∨ ∃ stop : Date, stop.toOrdinal + 1 = first.toOrdinal := by
  have hpos := first.toOrdinal_pos
  by_cases hone : first.toOrdinal = 1
  · refine .inl ⟨fun d => toOrdinal_le_iff.mp ?_, hone⟩
    have hd := d.toOrdinal_pos
    omega
  · obtain ⟨stop, -, hstop⟩ := ofOrdinal?_spec (n := first.toOrdinal - 1) (by omega) (by have := first.toOrdinal_le_max; omega)
    exact .inr ⟨stop, by omega⟩

end Period

end Date

end Py
