import Nl2Sql.Lib.DecimalQuotient
import Nl2Sql.Metric.Execute

/-!
# The value of a ratio

A ratio of two counts is divided at 64 digits and then rounded half up to two places. Two counts of 63 bits are never that near to a tie
without being one, so the first rounding does not show.
-/

namespace Nl2Sql

open Py Decimal

namespace RatioAux

/-! ## The distance to a tie -/

/-- A percentage of two counts is a tie, or away from every tie by at least half of a hundredth of the inverse of the greater one. -/
theorem tie_distance {n d : Nat} (hd : 0 < d) (m : Nat) :
    (100 * (n : ℚ) / d) * 100 + 1 / 2 = m ∨ 1 / (2 * (d : ℚ)) ≤ |(100 * (n : ℚ) / d) * 100 + 1 / 2 - m| := by
  have hd0 : (0 : ℚ) < 2 * d := by positivity
  have hnumerator : (100 * (n : ℚ) / d) * 100 + 1 / 2 - m = ((20000 * n + d - 2 * d * m : Int) : ℚ) / (2 * d) := by
    push_cast
    field_simp
    ring
  by_cases hzero : (20000 * n + d - 2 * d * m : Int) = 0
  · rw [hzero, Int.cast_zero, zero_div, sub_eq_zero] at hnumerator
    exact .inl hnumerator
  · refine .inr ?_
    have hone : (1 : ℚ) ≤ |((20000 * n + d - 2 * d * m : Int) : ℚ)| := by exact_mod_cast Int.one_le_abs hzero
    rw [hnumerator, abs_div, abs_of_pos hd0]
    exact div_le_div_of_nonneg_right hone hd0.le

/-- A tie is a number of the context. -/
theorem fits_tie {x : ℚ} {m : Nat} (hle : x ≤ 100) (htie : x * 100 + 1 / 2 = m) : Fits exactContext x := by
  refine ⟨(10 * m - 5 : Int), -3, ?_, ?_, by decide, by decide⟩
  · push_cast
    rw [← htie]
    norm_num
    ring
  · have hm : (m : ℚ) ≤ 10001 := by linarith
    have hm' : m ≤ 10001 := by exact_mod_cast hm
    have hlt : (10 * (m : Int) - 5).natAbs < 100006 := by omega
    exact hlt.trans (by decide)

/-! ## The two stages -/

/-- The percentage of two counts, divided at the precision of the context: not negative, at most 101, and rounded half up to two places as
the exact one is. -/
theorem div_percentage {p : Decimal} {n d : Nat} (hp : p.toRat = 100 * n) (hd : 0 < d) (hle : n ≤ d) (hbound : d ≤ 2 ^ 63 - 1) :
    ∃ y, Decimal.div exactContext p (Decimal.ofInt d) = .ok y ∧ 0 ≤ y.toRat ∧ y.toRat ≤ 101 ∧
      roundHalfUp y.toRat 2 = roundHalfUp (100 * n / d) 2 := by
  have hd0 : (0 : ℚ) < d := by exact_mod_cast hd
  have hd1 : (1 : ℚ) ≤ d := by exact_mod_cast hd
  have hle' : (n : ℚ) ≤ d := by exact_mod_cast hle
  have hbound' : (d : ℚ) ≤ 2 ^ 63 := by exact_mod_cast (by omega : d ≤ 2 ^ 63)
  have hquotient : p.toRat / (Decimal.ofInt d).toRat = 100 * n / d := by rw [hp, toRat_ofInt, Int.cast_natCast]
  have hb : (Decimal.ofInt d).coeff ≠ 0 := fun h => hd0.ne' (by
    rw [← toRat_eq_zero_iff, toRat_ofInt, Int.cast_natCast] at h
    exact h)
  have hx0 : (0 : ℚ) ≤ 100 * n / d := by positivity
  have hx100 : (100 : ℚ) * n / d ≤ 100 := by
    rw [div_le_iff₀ hd0]
    linarith
  by_cases htie : ∃ m : Nat, (100 * (n : ℚ) / d) * 100 + 1 / 2 = m
  · -- a tie is divided exactly
    obtain ⟨m, hm⟩ := htie
    obtain ⟨y, hy, hval⟩ := div_of_fits hb (hquotient ▸ fits_tie hx100 hm)
    rw [hquotient] at hval
    exact ⟨y, hy, hval ▸ hx0, by rw [hval]; linarith, by rw [hval]⟩
  · have hgap : ∀ m : Nat, 1 / (2 * (d : ℚ)) ≤ |(100 * (n : ℚ) / d) * 100 + 1 / 2 - m| := fun m =>
      (tie_distance hd m).resolve_left fun h => htie ⟨m, h⟩
    by_cases hn : n = 0
    · have hzero : (100 : ℚ) * n / d = 0 := by rw [hn, Nat.cast_zero, mul_zero, zero_div]
      have hfits : Fits exactContext (100 * n / d) := by
        rw [hzero]
        exact ⟨0, 0, by norm_num, by decide, by decide, by decide⟩
      obtain ⟨y, hy, hval⟩ := div_of_fits hb (hquotient ▸ hfits)
      rw [hquotient] at hval
      exact ⟨y, hy, hval ▸ hx0, by rw [hval]; linarith, by rw [hval]⟩
    · have hn1 : (1 : ℚ) ≤ n := by exact_mod_cast Nat.one_le_iff_ne_zero.mpr hn
      have ha : p.coeff ≠ 0 := by
        intro h
        rw [← toRat_eq_zero_iff, hp] at h
        linarith
      have hsmall : (10 : ℚ) ^ (-17 : Int) ≤ 100 * n / d := by
        rw [le_div_iff₀ hd0]
        calc (10 : ℚ) ^ (-17 : Int) * d ≤ (10 : ℚ) ^ (-17 : Int) * 2 ^ 63 := mul_le_mul_of_nonneg_left hbound' (by positivity)
          _ ≤ 100 * 1 := by norm_num
          _ ≤ 100 * n := by linarith
      have hlow : (10 : ℚ) ^ (exactContext.emin + 1) ≤ |p.toRat / (Decimal.ofInt d).toRat| := by
        rw [hquotient, abs_of_nonneg hx0]
        exact (zpow_le_zpow_right₀ (by norm_num) (by decide)).trans hsmall
      have hhigh : |p.toRat / (Decimal.ofInt d).toRat| < (10 : ℚ) ^ (exactContext.emax - 1) := by
        rw [hquotient, abs_of_nonneg hx0]
        have hthousand : (100 : ℚ) < (10 : ℚ) ^ (3 : Int) := by norm_num
        exact (hx100.trans_lt hthousand).trans_le (zpow_le_zpow_right₀ (by norm_num) (by decide))
      obtain ⟨y, hy, herror⟩ := div_error ha hb hlow hhigh
      rw [hquotient, abs_of_nonneg hx0] at herror
      have hprec : exactContext.prec = 64 := rfl
      rw [hprec] at herror
      -- the error of the division, against half of a hundredth of the inverse of the denominator
      have hclose : |y.toRat - 100 * n / d| ≤ 1 / 10 ^ 60 := by
        rw [le_div_iff₀ (by positivity)]
        nlinarith [abs_nonneg (y.toRat - 100 * n / d)]
      have hnear : (1 / 10 ^ 60 : ℚ) * 10 ^ 2 < 1 / (2 * d) := by
        rw [lt_div_iff₀ (by positivity)]
        calc (1 / 10 ^ 60 : ℚ) * 10 ^ 2 * (2 * d) ≤ 1 / 10 ^ 60 * 10 ^ 2 * (2 * 2 ^ 63) := by gcongr
          _ < 1 := by norm_num
      have hy0 : 0 ≤ y.toRat := by
        have hdown := (abs_le.mp hclose).1
        have htiny : (1 / 10 ^ 60 : ℚ) ≤ (10 : ℚ) ^ (-17 : Int) := by norm_num
        linarith
      have hy101 : y.toRat ≤ 101 := by
        have hup := (abs_le.mp hclose).2
        have hone : (1 / 10 ^ 60 : ℚ) ≤ 1 := by norm_num
        linarith
      refine ⟨y, hy, hy0, hy101, roundHalfUp_congr hx0 hy0 hclose fun m => hnear.trans_le ?_⟩
      have hhundred : (10 : ℚ) ^ 2 = 100 := by norm_num
      rw [hhundred]
      exact hgap m

/-- Dividing and then rounding is rounding the exact percentage. -/
theorem expectedRatio_eq {n d : Nat} (hd : 0 < d) (hle : n ≤ d) (hbound : d ≤ 2 ^ 63 - 1) :
    ∃ r, expectedRatio n d = .ok r ∧ r.exp = -2 ∧ r.toRat = roundHalfUp (100 * n / d) 2 := by
  have hfits : Fits exactContext ((Decimal.ofInt 100).toRat * (Decimal.ofInt n).toRat) := by
    refine ⟨100 * n, 0, ?_, ?_, by decide, by decide⟩
    · rw [toRat_ofInt, toRat_ofInt]
      push_cast
      ring
    · have hlt : (100 * (n : Int)).natAbs < 100 * 2 ^ 63 := by omega
      exact hlt.trans (by decide)
  obtain ⟨p, hmul, hp⟩ := mul_of_fits hfits
  rw [toRat_ofInt, toRat_ofInt, Int.cast_natCast] at hp
  obtain ⟨y, hdiv, hy0, hy101, hround⟩ := div_percentage (by exact_mod_cast hp) hd hle hbound
  have hcoeff : ⌊|y.toRat| * 10 ^ 2 + 1 / 2⌋₊ < 10 ^ exactContext.prec := by
    have hlt : ⌊|y.toRat| * 10 ^ 2 + 1 / 2⌋₊ < 10101 := by
      rw [Nat.floor_lt (by positivity), abs_of_nonneg hy0]
      push_cast
      linarith
    exact hlt.trans (by decide)
  obtain ⟨r, hquantize, hvalue⟩ := quantize_halfUp (c := exactContext) (d := y) (by decide) (by decide) hcoeff
  refine ⟨r, ?_, ?_, hvalue.trans hround⟩
  · unfold expectedRatio
    rw [hmul]
    change (Decimal.div exactContext p (Decimal.ofInt d) >>= fun quotient => Decimal.quantize exactContext .halfUp quotient (-2)) = _
    rw [hdiv]
    exact hquantize
  · rw [quantize_eq (by decide) (by decide) (by decide)] at hquantize
    split at hquantize
    · cases hquantize
      exact (rescale_selects _ _ _).1
    · nomatch hquantize

end RatioAux

open RatioAux

/-- The value of a ratio is correctly rounded. Of counts of 63 bits the two stages give the exact percentage rounded half up to two places,
and a row with these counts is accepted exactly where that is its value and it says that it succeeded. -/
theorem ratio_rounding (n d : Int) (hn : 0 ≤ n) (hle : n ≤ d) (hd : 0 < d) (hbound : d ≤ 2 ^ 63 - 1) :
    (∃ r, expectedRatio n d = .ok r ∧ r.exp = -2 ∧ r.toRat = roundHalfUp (100 * n / d) 2) ∧
      ∀ row : ResultRow, cellOf row "numerator" = .int n → cellOf row "denominator" = .int d →
        (validateRatioRow row = .ok () ↔ ∃ v, cellOf row "value" = .decimal (some v) ∧ v.exp = -2 ∧
          v.toRat = roundHalfUp (100 * n / d) 2 ∧ cellOf row "status" = .str "success") := by
  obtain ⟨r, hr, hexp, hvalue⟩ : ∃ r, expectedRatio n d = .ok r ∧ r.exp = -2 ∧ r.toRat = roundHalfUp (100 * n / d) 2 := by
    obtain ⟨n, rfl⟩ := Int.eq_ofNat_of_zero_le hn
    obtain ⟨d, rfl⟩ := Int.eq_ofNat_of_zero_le hd.le
    exact expectedRatio_eq (by omega) (by omega) (by omega)
  refine ⟨⟨r, hr, hexp, hvalue⟩, fun row hnumerator hdenominator => ?_⟩
  unfold validateRatioRow ratioValid
  rw [hnumerator, hdenominator]
  simp only [hd.ne', if_false, hr]
  have hcounts : shapeInvalidIf (¬(0 ≤ n ∧ n ≤ d ∧ d ≤ 2 ^ 63 - 1)) = .ok () := if_neg (not_not.mpr ⟨hn, hle, hbound⟩)
  rw [hcounts]
  have haccepted : ∀ valid : Bool, (shapeInvalidIf (valid = false) = .ok () ↔ valid = true) := by
    intro valid
    cases valid with
    | true => exact ⟨fun _ => rfl, fun _ => rfl⟩
    | false => exact ⟨(by rintro ⟨⟩), (by rintro ⟨⟩)⟩
  have hother : ∀ value : Cell, (∀ v, value ≠ .decimal (some v)) →
      (shapeInvalidIf (false = false) = .ok () ↔ ∃ v, value = .decimal (some v) ∧ v.exp = -2 ∧
        v.toRat = roundHalfUp (100 * n / d) 2 ∧ cellOf row "status" = .str "success") := by
    intro value hne
    refine ⟨fun h => ?_, ?_⟩
    · cases (haccepted false).mp h
    · rintro ⟨v, hv, _⟩
      exact absurd hv (hne v)
  cases hcell : cellOf row "value" with
  | decimal value =>
    cases value with
    | none => exact hother _ (by rintro _ ⟨⟩)
    | some v =>
      refine (haccepted _).trans ?_
      rw [decide_eq_true_iff, hvalue]
      constructor
      · exact fun h => ⟨v, rfl, h⟩
      · rintro ⟨v', hv, h⟩
        cases hv
        exact h
  | null => exact hother _ (by rintro _ ⟨⟩)
  | bool b => exact hother _ (by rintro _ ⟨⟩)
  | int n => exact hother _ (by rintro _ ⟨⟩)
  | str s => exact hother _ (by rintro _ ⟨⟩)
  | datetime offset day micros => exact hother _ (by rintro _ ⟨⟩)
  | date day => exact hother _ (by rintro _ ⟨⟩)
  | other => exact hother _ (by rintro _ ⟨⟩)

/-- One of eight hundred is a tie, and goes up. -/
theorem ratio_rounding_tie : ∃ r, expectedRatio 1 800 = .ok r ∧ r.exp = -2 ∧ r.toRat = 13 / 100 := by
  obtain ⟨⟨r, hr, hexp, hvalue⟩, -⟩ := ratio_rounding 1 800 (by decide) (by decide) (by decide) (by decide)
  refine ⟨r, hr, hexp, hvalue.trans ?_⟩
  norm_num [roundHalfUp, Decimal.unit]

end Nl2Sql
