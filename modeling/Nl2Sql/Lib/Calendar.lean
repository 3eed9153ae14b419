import Mathlib.Tactic.Ring
import Nl2Sql.Lib.Date

/-!
# Days in order

The ordinal of a day grows with the day, every number from 1 to the last day of the year 9999 is the ordinal of one day, and adding and
taking away days is adding to and taking away from the ordinal.
-/

namespace Py

namespace Date

/-! ## Years and months -/

/-- The days of a year. -/
def daysInYear (year : Nat) : Nat := if (year % 4 = 0 ∧ year % 100 ≠ 0) ∨ year % 400 = 0 then 366 else 365

/-- The days of the months of a year before a month. -/
def daysBeforeMonth (year month : Nat) : Nat := ((List.range (month - 1)).map fun m => daysInMonth year (m + 1)).sum

theorem toOrdinal_eq (d : Date) : d.toOrdinal = daysBeforeYear d.year + daysBeforeMonth d.year d.month + d.day := rfl

theorem daysBeforeYear_succ {year : Nat} (h : 1 ≤ year) : daysBeforeYear (year + 1) = daysBeforeYear year + daysInYear year := by
  obtain ⟨y, rfl⟩ : ∃ y, year = y + 1 := ⟨year - 1, by omega⟩
  have h4 : (y + 1) / 4 = y / 4 + if (y + 1) % 4 = 0 then 1 else 0 := by split <;> omega
  have h100 : (y + 1) / 100 = y / 100 + if (y + 1) % 100 = 0 then 1 else 0 := by split <;> omega
  have h400 : (y + 1) / 400 = y / 400 + if (y + 1) % 400 = 0 then 1 else 0 := by split <;> omega
  have hle : y / 100 ≤ y / 4 := by omega
  have hcentury : (y + 1) % 400 = 0 → (y + 1) % 100 = 0 := by omega
  have hfour : (y + 1) % 100 = 0 → (y + 1) % 4 = 0 := by omega
  simp only [daysBeforeYear, daysInYear, Nat.add_sub_cancel, h4, h100, h400]
  clear h4 h100 h400
  generalize y / 4 = a, y / 100 = b, y / 400 = c at *
  generalize (y + 1) % 4 = u, (y + 1) % 100 = v, (y + 1) % 400 = w at *
  by_cases hu : u = 0
  · by_cases hv : v = 0
    · by_cases hw : w = 0 <;> simp [hu, hv, hw] <;> omega
    · simp [hu, hv, mt hcentury hv]
      omega
  · simp [hu, mt hfour hu, mt hcentury (mt hfour hu)]
    omega

theorem daysBeforeMonth_succ {year month : Nat} (h : 1 ≤ month) :
    daysBeforeMonth year (month + 1) = daysBeforeMonth year month + daysInMonth year month := by
  obtain ⟨m, rfl⟩ : ∃ m, month = m + 1 := ⟨month - 1, by omega⟩
  simp [daysBeforeMonth, List.range_succ]

/-- The months make up the year. -/
theorem daysBeforeMonth_thirteen (year : Nat) : daysBeforeMonth year 13 = daysInYear year := by
  by_cases hleap : (year % 4 = 0 ∧ year % 100 ≠ 0) ∨ year % 400 = 0
  · simp [daysBeforeMonth, daysInMonth, daysInYear, hleap, List.range_succ]
  · simp [daysBeforeMonth, daysInMonth, daysInYear, hleap, List.range_succ]

theorem daysInMonth_pos (year month : Nat) : 1 ≤ daysInMonth year month := by
  unfold daysInMonth
  split_ifs <;> omega

theorem daysInMonth_le (year month : Nat) : daysInMonth year month ≤ 31 := by
  unfold daysInMonth
  split_ifs <;> omega

theorem daysBeforeYear_mono {year year' : Nat} (hpos : 1 ≤ year) (h : year ≤ year') : daysBeforeYear year ≤ daysBeforeYear year' := by
  induction h with
  | refl => exact le_rfl
  | step hle ih =>
    rename_i y
    have hsucc := daysBeforeYear_succ (hpos.trans hle)
    exact ih.trans (by rw [Nat.succ_eq_add_one, hsucc]; exact Nat.le_add_right _ _)

theorem daysBeforeMonth_mono {year month month' : Nat} (hpos : 1 ≤ month) (h : month ≤ month') :
    daysBeforeMonth year month ≤ daysBeforeMonth year month' := by
  induction h with
  | refl => exact le_rfl
  | step hle ih =>
    rename_i m
    have hsucc : daysBeforeMonth year (m + 1) = _ := daysBeforeMonth_succ (hpos.trans hle)
    exact ih.trans (by rw [Nat.succ_eq_add_one, hsucc]; exact Nat.le_add_right _ _)

/-! ## The order of the days -/

theorem toOrdinal_pos (d : Date) : 1 ≤ d.toOrdinal := by
  have hday := d.day_bounds.1
  rw [toOrdinal_eq]
  omega

/-- A day is in its year. -/
theorem toOrdinal_le_year (d : Date) : d.toOrdinal ≤ daysBeforeYear (d.year + 1) := by
  have hmonth : daysBeforeMonth d.year (d.month + 1) = _ := daysBeforeMonth_succ d.month_bounds.1
  have hyear : daysBeforeMonth d.year (d.month + 1) ≤ daysBeforeMonth d.year 13 :=
    daysBeforeMonth_mono (Nat.le_add_left 1 _) (Nat.succ_le_succ d.month_bounds.2)
  have hday := d.day_bounds.2
  rw [toOrdinal_eq, daysBeforeYear_succ d.year_bounds.1, ← daysBeforeMonth_thirteen]
  omega

theorem toOrdinal_lt_of_lt {a b : Date} (h : a < b) : a.toOrdinal < b.toOrdinal := by
  have hkey : a.year * 10000 + a.month * 100 + a.day < b.year * 10000 + b.month * 100 + b.day := h
  have ha := a.day_bounds.2.trans (daysInMonth_le _ _)
  have hb := b.day_bounds.2.trans (daysInMonth_le _ _)
  have hma := a.month_bounds
  have hmb := b.month_bounds
  have hdb := b.day_bounds.1
  rcases Nat.lt_trichotomy a.year b.year with hyear | hyear | hyear
  · have hmono : daysBeforeYear (a.year + 1) ≤ daysBeforeYear b.year := daysBeforeYear_mono (Nat.le_add_left 1 _) hyear
    have hle := a.toOrdinal_le_year
    rw [b.toOrdinal_eq]
    omega
  · rcases Nat.lt_trichotomy a.month b.month with hmonth | hmonth | hmonth
    · have hsucc : daysBeforeMonth b.year (a.month + 1) = _ := daysBeforeMonth_succ hma.1
      have hmono : daysBeforeMonth b.year (a.month + 1) ≤ daysBeforeMonth b.year b.month :=
        daysBeforeMonth_mono (Nat.le_add_left 1 _) hmonth
      have hday := a.day_bounds.2
      rw [a.toOrdinal_eq, b.toOrdinal_eq, hyear]
      rw [hyear] at hday
      omega
    · rw [a.toOrdinal_eq, b.toOrdinal_eq, hyear, hmonth]
      omega
    · omega
  · omega

/-- Days with one key are one day. -/
theorem key_injective {a b : Date} (h : a.key = b.key) : a = b := by
  have hkey : a.year * 10000 + a.month * 100 + a.day = b.year * 10000 + b.month * 100 + b.day := h
  have ha := a.day_bounds.2.trans (daysInMonth_le _ _)
  have hb := b.day_bounds.2.trans (daysInMonth_le _ _)
  have hma := a.month_bounds
  have hmb := b.month_bounds
  obtain ⟨ya, ma, da, _, _, _⟩ := a
  obtain ⟨yb, mb, db, _, _, _⟩ := b
  simp only at *
  obtain rfl : ya = yb := by omega
  obtain rfl : ma = mb := by omega
  obtain rfl : da = db := by omega
  rfl

theorem toOrdinal_lt_iff {a b : Date} : a.toOrdinal < b.toOrdinal ↔ a < b := by
  constructor
  · intro h
    rcases Nat.lt_trichotomy a.key b.key with hlt | heq | hgt
    · exact hlt
    · rw [key_injective heq] at h
      exact absurd h (Nat.lt_irrefl _)
    · exact absurd h (Nat.lt_asymm (toOrdinal_lt_of_lt hgt))
  · exact toOrdinal_lt_of_lt

theorem toOrdinal_le_iff {a b : Date} : a.toOrdinal ≤ b.toOrdinal ↔ a ≤ b := by
  rw [← Nat.not_lt, toOrdinal_lt_iff]
  exact Nat.not_lt

theorem toOrdinal_injective {a b : Date} (h : a.toOrdinal = b.toOrdinal) : a = b :=
  key_injective (le_antisymm (toOrdinal_le_iff.mp h.le) (toOrdinal_le_iff.mp h.ge))

/-! ## The day of an ordinal -/

theorem of?_eq_some {year month day : Nat} (hyear : 1 ≤ year ∧ year ≤ 9999) (hmonth : 1 ≤ month ∧ month ≤ 12)
    (hday : 1 ≤ day ∧ day ≤ daysInMonth year month) : of? year month day = some ⟨year, month, day, hyear, hmonth, hday⟩ :=
  dif_pos ⟨hyear, hmonth, hday⟩

/-- Where a date is read from numbers, they are its year, its month and its day. -/
theorem of?_eq_some_iff {year month day : Nat} {d : Date} :
    of? year month day = some d ↔ d.year = year ∧ d.month = month ∧ d.day = day := by
  constructor
  · intro h
    unfold of? at h
    split at h
    · cases h
      exact ⟨rfl, rfl, rfl⟩
    · nomatch h
  · rintro ⟨rfl, rfl, rfl⟩
    exact of?_eq_some d.year_bounds d.month_bounds d.day_bounds

/-- Walking over the months from one on finds the day of a year. -/
theorem dayOfYear?_spec {year : Nat} (hyear : 1 ≤ year ∧ year ≤ 9999) (months : Nat) {month day : Nat} (hmonths : month + months = 13)
    (hmonth : 1 ≤ month) (hday : 1 ≤ day) (hle : daysBeforeMonth year month + day ≤ daysInYear year) :
    ∃ d, dayOfYear? year months month day = some d ∧ d.toOrdinal = daysBeforeYear year + daysBeforeMonth year month + day := by
  induction months generalizing month day with
  | zero =>
    obtain rfl : month = 13 := by omega
    rw [daysBeforeMonth_thirteen] at hle
    omega
  | succ months ih =>
    unfold dayOfYear?
    by_cases hin : day ≤ daysInMonth year month
    · rw [if_pos hin, of?_eq_some hyear ⟨hmonth, by omega⟩ ⟨hday, hin⟩]
      exact ⟨_, rfl, rfl⟩
    · have hsucc : daysBeforeMonth year (month + 1) = _ := daysBeforeMonth_succ hmonth
      rw [if_neg hin]
      have hrest : daysBeforeMonth year (month + 1) + (day - daysInMonth year month) ≤ daysInYear year := by omega
      obtain ⟨d, hd, hordinal⟩ := ih (by omega) (by omega) (by omega) hrest
      exact ⟨d, hd, by omega⟩

/-- The ordinal of the last day of the year 9999. -/
def maxOrdinal : Nat := 3652059

theorem toOrdinal_le_max (d : Date) : d.toOrdinal ≤ maxOrdinal :=
  d.toOrdinal_le_year.trans ((daysBeforeYear_mono (Nat.le_add_left 1 _) (Nat.succ_le_succ d.year_bounds.2)).trans (by decide))

/-- The last day of a year. -/
theorem ofOrdinal_lastDay {year : Nat} (hyear : 1 ≤ year ∧ year ≤ 9999) :
    ∃ d, of? year 12 31 = some d ∧ d.toOrdinal = daysBeforeYear (year + 1) := by
  have hday : daysInMonth year 12 = 31 := by simp [daysInMonth]
  have hyears := daysBeforeYear_succ hyear.1
  have hmonths : daysBeforeMonth year 13 = daysBeforeMonth year 12 + daysInMonth year 12 := daysBeforeMonth_succ (by omega)
  rw [daysBeforeMonth_thirteen] at hmonths
  refine ⟨_, of?_eq_some hyear (by omega) ⟨by omega, by omega⟩, ?_⟩
  rw [toOrdinal_eq]
  dsimp only
  omega

/-- The days before a year, by cycles of 400, 100 and 4 years. -/
theorem daysBeforeYear_cycles (n400 : Nat) {n100 n4 n1 : Nat} (h100 : n100 ≤ 3) (h4 : n4 ≤ 24) (h1 : n1 ≤ 3) :
    daysBeforeYear (n400 * 400 + 1 + n100 * 100 + n4 * 4 + n1) = n400 * 146097 + n100 * 36524 + n4 * 1461 + n1 * 365 := by
  have hyear : n400 * 400 + 1 + n100 * 100 + n4 * 4 + n1 - 1 = n400 * 400 + n100 * 100 + n4 * 4 + n1 := by omega
  have hd4 : (n400 * 400 + n100 * 100 + n4 * 4 + n1) / 4 = n400 * 100 + n100 * 25 + n4 := by omega
  have hd100 : (n400 * 400 + n100 * 100 + n4 * 4 + n1) / 100 = n400 * 4 + n100 := by omega
  have hd400 : (n400 * 400 + n100 * 100 + n4 * 4 + n1) / 400 = n400 := by omega
  simp only [daysBeforeYear, hyear, hd4, hd100, hd400]
  omega

/-- Every number up to the last ordinal is the ordinal of a day. -/
theorem ofOrdinal?_spec {n : Nat} (hpos : 1 ≤ n) (hmax : n ≤ maxOrdinal) : ∃ d, ofOrdinal? n = some d ∧ d.toOrdinal = n := by
  unfold maxOrdinal at hmax
  unfold ofOrdinal?
  obtain ⟨m, rfl⟩ : ∃ m, n = m + 1 := ⟨n - 1, by omega⟩
  simp only [Nat.add_sub_cancel]
  have hr1 := Nat.mod_lt m (by omega : 0 < 146097)
  have hm1 := Nat.div_add_mod m 146097
  generalize m / 146097 = n400, m % 146097 = r1 at *
  have hr2 := Nat.mod_lt r1 (by omega : 0 < 36524)
  have hm2 := Nat.div_add_mod r1 36524
  generalize r1 / 36524 = n100, r1 % 36524 = r2 at *
  have hr3 := Nat.mod_lt r2 (by omega : 0 < 1461)
  have hm3 := Nat.div_add_mod r2 1461
  generalize r2 / 1461 = n4, r2 % 1461 = r3 at *
  have hr4 := Nat.mod_lt r3 (by omega : 0 < 365)
  have hm4 := Nat.div_add_mod r3 365
  generalize r3 / 365 = n1, r3 % 365 = r4 at *
  have h4 : n4 ≤ 24 := by omega
  by_cases hlast : n1 = 4 ∨ n100 = 4
  · -- the last day of a leap year that ends a cycle of 4 or of 400 years
    rw [if_pos hlast]
    by_cases hcycle : n100 = 4
    · have hzero : n4 = 0 ∧ n1 = 0 ∧ r4 = 0 := by omega
      obtain ⟨rfl, rfl, rfl⟩ := hzero
      obtain rfl := hcycle
      obtain ⟨d, hd, hordinal⟩ : ∃ d, of? (n400 * 400 + 400) 12 31 = some d ∧ _ := ofOrdinal_lastDay (by omega)
      have hyears : daysBeforeYear ((n400 + 1) * 400 + 1 + 0 * 100 + 0 * 4 + 0) = _ :=
        daysBeforeYear_cycles (n400 + 1) (by omega) (by omega) (by omega)
      refine ⟨d, ?_, ?_⟩
      · rw [← hd]
        congr 1
      · rw [hordinal, show n400 * 400 + 400 + 1 = (n400 + 1) * 400 + 1 + 0 * 100 + 0 * 4 + 0 by omega, hyears]
        omega
    · have hone : n1 = 4 ∧ r4 = 0 := by omega
      obtain ⟨rfl, rfl⟩ := hone
      obtain ⟨d, hd, hordinal⟩ : ∃ d, of? (n400 * 400 + n100 * 100 + n4 * 4 + 4) 12 31 = some d ∧ _ := ofOrdinal_lastDay (by omega)
      have hyears : daysBeforeYear (n400 * 400 + 1 + n100 * 100 + n4 * 4 + 3) = _ :=
        daysBeforeYear_cycles n400 (by omega) (by omega) (by omega)
      have hsucc : daysBeforeYear (n400 * 400 + 1 + n100 * 100 + n4 * 4 + 3 + 1) = _ := daysBeforeYear_succ (by omega)
      have hleap : daysInYear (n400 * 400 + 1 + n100 * 100 + n4 * 4 + 3) = 366 := by
        refine if_pos (.inl ⟨by omega, ?_⟩)
        omega
      refine ⟨d, ?_, ?_⟩
      · rw [← hd]
        congr 1
        omega
      · rw [hordinal, show n400 * 400 + n100 * 100 + n4 * 4 + 4 + 1 = n400 * 400 + 1 + n100 * 100 + n4 * 4 + 3 + 1 by omega, hsucc,
          hyears, hleap]
        omega
  · rw [if_neg hlast]
    have hyears : daysBeforeYear (n400 * 400 + 1 + n100 * 100 + n4 * 4 + n1) = _ :=
      daysBeforeYear_cycles n400 (by omega) (by omega) (by omega)
    have hlength : 365 ≤ daysInYear (n400 * 400 + 1 + n100 * 100 + n4 * 4 + n1) := by
      unfold daysInYear
      split <;> omega
    have hfirst : daysBeforeMonth (n400 * 400 + 1 + n100 * 100 + n4 * 4 + n1) 1 = 0 := rfl
    have hin : daysBeforeMonth (n400 * 400 + 1 + n100 * 100 + n4 * 4 + n1) 1 + (r4 + 1) ≤
        daysInYear (n400 * 400 + 1 + n100 * 100 + n4 * 4 + n1) := by omega
    obtain ⟨d, hd, hordinal⟩ := dayOfYear?_spec (by omega) 12 rfl le_rfl (by omega) hin
    refine ⟨d, hd, ?_⟩
    rw [hordinal, hyears, hfirst]
    omega

/-! ## Days before and after -/

/-- Taking days away takes them from the ordinal, where days are left. -/
theorem minusDays?_eq_some_iff {d d' : Date} {n : Nat} : d.minusDays? n = some d' ↔ d'.toOrdinal + n = d.toOrdinal := by
  have hmax := d.toOrdinal_le_max
  have hpos := d'.toOrdinal_pos
  unfold minusDays?
  by_cases hlt : n < d.toOrdinal
  · obtain ⟨found, hfound, hordinal⟩ := ofOrdinal?_spec (n := d.toOrdinal - n) (by omega) (by omega)
    rw [if_pos hlt, hfound, Option.some.injEq]
    constructor
    · rintro rfl
      omega
    · exact fun h => toOrdinal_injective (by omega)
  · rw [if_neg hlt]
    exact ⟨nofun, fun h => by omega⟩

theorem minusDays?_eq_none_iff {d : Date} {n : Nat} : d.minusDays? n = none ↔ d.toOrdinal ≤ n := by
  have hmax := d.toOrdinal_le_max
  unfold minusDays?
  by_cases hlt : n < d.toOrdinal
  · obtain ⟨found, hfound, -⟩ := ofOrdinal?_spec (n := d.toOrdinal - n) (by omega) (by omega)
    rw [if_pos hlt, hfound]
    exact ⟨nofun, fun h => by omega⟩
  · rw [if_neg hlt]
    exact ⟨fun _ => not_lt.mp hlt, fun _ => rfl⟩

/-- Adding days adds them to the ordinal. -/
theorem plusDays?_of_toOrdinal {d d' : Date} {n : Nat} (h : d'.toOrdinal = d.toOrdinal + n) : d.plusDays? n = some d' := by
  have hmax := d'.toOrdinal_le_max
  have hpos := d'.toOrdinal_pos
  obtain ⟨found, hfound, hordinal⟩ := ofOrdinal?_spec (n := d.toOrdinal + n) (by omega) (by omega)
  unfold plusDays?
  rw [hfound, toOrdinal_injective (hordinal.trans h.symm)]

end Date

end Py
