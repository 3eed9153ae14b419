import Nl2Sql.Lib.Calendar

/-!
# Aware datetimes

A `datetime` that carries an offset from UTC names an instant. Its conversion to UTC fails where the instant is outside the years 1 to
9999; where it succeeds the instant is known by the date and the time in UTC, and these by their text.
-/

namespace Py

/-- The microseconds of a day. -/
def dayMicros : Nat := 86400000000

/-- A `datetime` with an offset from UTC: its date, the microseconds since midnight and the offset in microseconds, less than a day. -/
structure AwareDatetime where
  date : Date
  micros : Nat
  offset : Int
  micros_lt : micros < dayMicros
  offset_lt : -(dayMicros : Int) < offset ∧ offset < dayMicros
  deriving DecidableEq

/-- A `datetime`: one without an offset, which names no instant, or one with. -/
inductive Datetime where
  | naive (date : Date) (micros : Fin dayMicros)
  | aware (t : AwareDatetime)
  deriving DecidableEq

/-- The datetime with its offset, where it has one. -/
def Datetime.aware? : Datetime → Option AwareDatetime
  | .naive _ _ => none
  | .aware t => some t

namespace AwareDatetime

/-- The microseconds from the day before 1 January of the year 1, in UTC. -/
def instant (t : AwareDatetime) : Int := (t.date.toOrdinal : Int) * dayMicros + t.micros - t.offset

/-- The instant is in a year from 1 to 9999, in UTC. -/
def InCalendar (t : AwareDatetime) : Prop := (dayMicros : Int) ≤ t.instant ∧ t.instant < ((Date.maxOrdinal : Int) + 1) * dayMicros

instance (t : AwareDatetime) : Decidable t.InCalendar := inferInstanceAs (Decidable (_ ∧ _))

theorem toNat_emod_lt (n : Int) : (n % dayMicros).toNat < dayMicros := by
  have hpos : (0 : Int) < dayMicros := by decide
  have hnonneg := Int.emod_nonneg n hpos.ne'
  have hlt := Int.emod_lt_of_pos n hpos
  omega

/-- `t.astimezone(timezone.utc)`: none where it raises `OverflowError`. -/
def toUtc (t : AwareDatetime) : Option AwareDatetime :=
  if t.InCalendar then
    (Date.ofOrdinal? (t.instant / dayMicros).toNat).map fun date =>
      ⟨date, (t.instant % dayMicros).toNat, 0, toNat_emod_lt _, by decide⟩
  else
    none

end AwareDatetime

/-- The time of day in an ISO text: with microseconds where there are any. -/
def isoTime (micros : Nat) : String :=
  Date.padded 2 (micros / 3600000000) ++ ":" ++ Date.padded 2 (micros / 60000000 % 60) ++ ":" ++ Date.padded 2 (micros / 1000000 % 60) ++
    if micros % 1000000 = 0 then "" else "." ++ Date.padded 6 (micros % 1000000)

/-- `t.isoformat()` of a datetime in UTC. -/
def utcIsoformat (t : AwareDatetime) : String := t.date.isoformat ++ "T" ++ isoTime t.micros ++ "+00:00"

example : utcIsoformat ⟨⟨2026, 1, 31, by decide, by decide, by decide⟩, 3723000004, 0, by decide, by decide⟩ =
    "2026-01-31T01:02:03.000004+00:00" := by decide +kernel

namespace AwareDatetime

variable {t : AwareDatetime}

/-- The day of an instant in the calendar. -/
theorem day_bounds (h : t.InCalendar) : 1 ≤ (t.instant / dayMicros).toNat ∧ (t.instant / dayMicros).toNat ≤ Date.maxOrdinal := by
  obtain ⟨hlow, hhigh⟩ := h
  have hpos : (0 : Int) < dayMicros := by decide
  have hday : 1 ≤ t.instant / dayMicros := (Int.le_ediv_iff_mul_le hpos).mpr (by rwa [one_mul])
  have hlast : t.instant / dayMicros < (Date.maxOrdinal : Int) + 1 := (Int.ediv_lt_iff_lt_mul hpos).mpr hhigh
  omega

/-- The date and the time of a datetime in UTC are those of its instant. -/
theorem eq_iff_of_utc {u v : AwareDatetime} (hu : u.offset = 0) (hv : v.offset = 0) : u = v ↔ u.instant = v.instant := by
  refine ⟨congrArg _, fun h => ?_⟩
  have hmicros := u.micros_lt
  have hmicros' := v.micros_lt
  have hscale : (dayMicros : Int) = 86400000000 := rfl
  rw [instant, instant, hu, hv, hscale] at h
  rw [dayMicros] at hmicros hmicros'
  have hday : u.date.toOrdinal = v.date.toOrdinal := by omega
  have htime : u.micros = v.micros := by omega
  have hdate := Date.toOrdinal_injective hday
  cases u
  cases v
  simp only at hu hv htime hdate
  subst hu hv htime hdate
  rfl

theorem inCalendar_of_utc {u : AwareDatetime} (hu : u.offset = 0) : u.InCalendar := by
  have hdate := u.date.toOrdinal_pos
  have hmax := u.date.toOrdinal_le_max
  have hmicros := u.micros_lt
  have hscale : (dayMicros : Int) = 86400000000 := rfl
  rw [InCalendar, instant, hu, hscale]
  rw [dayMicros] at hmicros
  omega

/-- An instant in the calendar has a datetime in UTC. -/
theorem toUtc_of_inCalendar (h : t.InCalendar) : ∃ u, t.toUtc = some u ∧ u.offset = 0 ∧ u.instant = t.instant := by
  have hpos : (0 : Int) < dayMicros := by decide
  have hnonneg : 0 ≤ t.instant % dayMicros := Int.emod_nonneg _ hpos.ne'
  have hsplit : dayMicros * (t.instant / dayMicros) + t.instant % dayMicros = t.instant := Int.mul_ediv_add_emod _ _
  obtain ⟨hlow, hhigh⟩ := day_bounds h
  obtain ⟨d, hd, hordinal⟩ := Date.ofOrdinal?_spec hlow hhigh
  refine ⟨_, by rw [toUtc, if_pos h, hd, Option.map_some], rfl, ?_⟩
  rw [instant, hordinal, Int.toNat_of_nonneg hnonneg, Int.toNat_of_nonneg (by omega), sub_zero, mul_comm]
  exact hsplit

/-- The conversion gives the datetime in UTC of the same instant. -/
theorem toUtc_eq_some_iff {u : AwareDatetime} : t.toUtc = some u ↔ u.offset = 0 ∧ u.instant = t.instant := by
  constructor
  · intro h
    have hin : t.InCalendar := by
      by_contra hout
      rw [toUtc, if_neg hout] at h
      nomatch h
    obtain ⟨v, hv, hoffset, hinstant⟩ := toUtc_of_inCalendar hin
    obtain rfl := Option.some.inj (hv.symm.trans h)
    exact ⟨hoffset, hinstant⟩
  · rintro ⟨hoffset, hinstant⟩
    have hin : t.InCalendar := by
      have hu := inCalendar_of_utc hoffset
      rwa [InCalendar, hinstant] at hu
    obtain ⟨v, hv, hvoffset, hvinstant⟩ := toUtc_of_inCalendar hin
    rw [hv, (eq_iff_of_utc hvoffset hoffset).mpr (hvinstant.trans hinstant.symm)]

theorem toUtc_isSome_iff : t.toUtc.isSome = true ↔ t.InCalendar := by
  by_cases h : t.InCalendar
  · obtain ⟨u, hu, -⟩ := toUtc_of_inCalendar h
    exact iff_of_true (by rw [hu]; rfl) h
  · exact iff_of_false (by rw [toUtc, if_neg h]; exact Bool.false_ne_true) h

end AwareDatetime

/-! ## Texts -/

namespace Date

theorem toList_padded (width n : Nat) : (padded width n).toList = List.replicate (width - (Nat.toDigits 10 n).length) '0' ++ Nat.toDigits 10 n := by
  have hpush : ∀ k, ("".pushn '0' k).toList = List.replicate k '0' := by
    intro k
    rw [String.pushn_eq_repeat_push]
    induction k with
    | zero => rfl
    | succ k ih => rw [Nat.repeat, String.toList_push, ih, List.replicate_succ']
  rw [padded, String.toList_append, hpush, Nat.toList_repr, ← String.length_toList, Nat.toList_repr]

theorem length_padded {width n : Nat} (hwidth : 0 < width) (h : n < 10 ^ width) : (padded width n).toList.length = width := by
  have hle : (Nat.toDigits 10 n).length ≤ width := (Nat.length_toDigits_le_iff (by decide) hwidth).mpr h
  rw [toList_padded, List.length_append, List.length_replicate]
  omega

theorem ofDigitChars_padded (width n : Nat) : Nat.ofDigitChars 10 (padded width n).toList 0 = n := by
  rw [toList_padded, Nat.ofDigitChars_append, Nat.ofDigitChars_replicate_zero, mul_zero, Nat.ofDigitChars_ten_toDigits]

/-- A number of a fixed width can be cancelled from the front of two texts. -/
theorem padded_cancel {width m n : Nat} (hwidth : 0 < width) (hm : m < 10 ^ width) (hn : n < 10 ^ width) {rest rest' : List Char}
    (h : (padded width m).toList ++ rest = (padded width n).toList ++ rest') : m = n ∧ rest = rest' := by
  have hlength : (padded width m).toList.length = (padded width n).toList.length := by rw [length_padded hwidth hm, length_padded hwidth hn]
  obtain ⟨heq, hrest⟩ := List.append_inj h hlength
  rw [← ofDigitChars_padded width m, heq, ofDigitChars_padded]
  exact ⟨rfl, hrest⟩

theorem day_le (d : Date) : d.day ≤ 31 := d.day_bounds.2.trans (daysInMonth_le _ _)

theorem toList_isoformat (d : Date) (rest : List Char) : d.isoformat.toList ++ rest =
    (padded 4 d.year).toList ++ '-' :: ((padded 2 d.month).toList ++ '-' :: ((padded 2 d.day).toList ++ rest)) := by
  have hdash : "-".toList = ['-'] := rfl
  rw [isoformat, String.toList_append, String.toList_append, String.toList_append, String.toList_append, hdash]
  simp only [List.append_assoc, List.cons_append, List.nil_append]

/-- A date can be cancelled from the front of two texts. -/
theorem isoformat_cancel {d e : Date} {rest rest' : List Char} (h : d.isoformat.toList ++ rest = e.isoformat.toList ++ rest') :
    d = e ∧ rest = rest' := by
  rw [toList_isoformat, toList_isoformat] at h
  have hwidth : ∀ d : Date, d.year < 10 ^ 4 ∧ d.month < 10 ^ 2 ∧ d.day < 10 ^ 2 := by
    intro d
    have hyear := d.year_bounds
    have hmonth := d.month_bounds
    have hday := d.day_le
    omega
  obtain ⟨hd1, hd2, hd3⟩ := hwidth d
  obtain ⟨he1, he2, he3⟩ := hwidth e
  obtain ⟨hyear, h⟩ := padded_cancel (by decide) hd1 he1 h
  obtain ⟨hmonth, h⟩ := padded_cancel (by decide) hd2 he2 (List.cons.inj h).2
  obtain ⟨hday, hrest⟩ := padded_cancel (by decide) hd3 he3 (List.cons.inj h).2
  refine ⟨?_, hrest⟩
  cases d
  cases e
  simp only at hyear hmonth hday
  subst hyear hmonth hday
  rfl

theorem isoformat_injective {d e : Date} (h : d.isoformat = e.isoformat) : d = e := by
  have happend : d.isoformat.toList ++ [] = e.isoformat.toList ++ [] := by rw [h]
  exact (isoformat_cancel happend).1

end Date

/-- The end of an ISO text in UTC: the microseconds, where there are any, and the offset. -/
def isoTail (micros : Nat) : List Char :=
  if micros = 0 then "+00:00".toList else '.' :: ((Date.padded 6 micros).toList ++ "+00:00".toList)

theorem toList_utcIsoformat (t : AwareDatetime) : (utcIsoformat t).toList =
    t.date.isoformat.toList ++ 'T' :: ((Date.padded 2 (t.micros / 3600000000)).toList ++
      ':' :: ((Date.padded 2 (t.micros / 60000000 % 60)).toList ++
        ':' :: ((Date.padded 2 (t.micros / 1000000 % 60)).toList ++ isoTail (t.micros % 1000000)))) := by
  have hcolon : ":".toList = [':'] := rfl
  have hpoint : ".".toList = ['.'] := rfl
  have hletter : "T".toList = ['T'] := rfl
  unfold utcIsoformat isoTime isoTail
  split
  · simp only [String.toList_append, hcolon, hletter, List.append_assoc, List.cons_append, List.nil_append, String.toList_empty]
  · simp only [String.toList_append, hcolon, hletter, hpoint, List.append_assoc, List.cons_append, List.nil_append]

theorem isoTail_injective {m n : Nat} (hm : m < 10 ^ 6) (hn : n < 10 ^ 6) (h : isoTail m = isoTail n) : m = n := by
  have hoffset : "+00:00".toList = ['+', '0', '0', ':', '0', '0'] := rfl
  unfold isoTail at h
  rw [hoffset] at h
  by_cases hm0 : m = 0
  · by_cases hn0 : n = 0
    · rw [hm0, hn0]
    · rw [if_pos hm0, if_neg hn0] at h
      nomatch (List.cons.inj h).1
  · by_cases hn0 : n = 0
    · rw [if_neg hm0, if_pos hn0] at h
      nomatch (List.cons.inj h).1
    · rw [if_neg hm0, if_neg hn0] at h
      exact (Date.padded_cancel (by decide) hm hn (List.cons.inj h).2).1

/-- A datetime in UTC is known by its text. -/
theorem utcIsoformat_injective {s t : AwareDatetime} (hs : s.offset = 0) (ht : t.offset = 0) (h : utcIsoformat s = utcIsoformat t) : s = t := by
  have hwidth : ∀ k < dayMicros, k / 3600000000 < 10 ^ 2 ∧ k / 60000000 % 60 < 10 ^ 2 ∧ k / 1000000 % 60 < 10 ^ 2 ∧ k % 1000000 < 10 ^ 6 := by
    intro k hk
    unfold dayMicros at hk
    omega
  obtain ⟨hs1, hs2, hs3, hs4⟩ := hwidth s.micros s.micros_lt
  obtain ⟨ht1, ht2, ht3, ht4⟩ := hwidth t.micros t.micros_lt
  have h := congrArg String.toList h
  rw [toList_utcIsoformat, toList_utcIsoformat] at h
  obtain ⟨hdate, h⟩ := Date.isoformat_cancel h
  obtain ⟨hhour, h⟩ := Date.padded_cancel (by decide) hs1 ht1 (List.cons.inj h).2
  obtain ⟨hminute, h⟩ := Date.padded_cancel (by decide) hs2 ht2 (List.cons.inj h).2
  obtain ⟨hsecond, h⟩ := Date.padded_cancel (by decide) hs3 ht3 (List.cons.inj h).2
  have hrest := isoTail_injective hs4 ht4 h
  have hmicros : s.micros = t.micros := by omega
  rw [AwareDatetime.eq_iff_of_utc hs ht, AwareDatetime.instant, AwareDatetime.instant, hs, ht, hdate, hmicros]

end Py
