import Nl2Sql.Lib.DecimalRound

/-!
# The error of a quotient

Fitting a number into a context moves it by at most one unit of its last place, and so a quotient is near the exact one, relative to its
size. A number that stays on its side of every tie is rounded half up to the same places after that as before.
-/

namespace Py

namespace Decimal

variable {c : DecimalContext}

/-! ## Fitting -/

/-- A rounded coefficient is within one of the exact one. -/
theorem abs_roundCoeff_sub_le (mode : Rounding) (s : Bool) (n k : Nat) : |(roundCoeff mode s n k : ℚ) - (n : ℚ) / 10 ^ k| ≤ 1 := by
  obtain ⟨q, f, hn, hf0, hf1, ⟨-, hr⟩ | ⟨-, hr⟩⟩ := roundCoeff_cases mode s n k
  · rw [hn, hr, abs_le]
    push_cast
    exact ⟨by linarith, by linarith⟩
  · rw [hn, hr, abs_le]
    exact ⟨by linarith, by linarith⟩

/-- A coefficient of more digits than the precision, cut to the precision, has at most as many, or is the next power of ten. -/
theorem roundCoeff_le (mode : Rounding) (s : Bool) {n p : Nat} (hp : p ≤ numDigits n) :
    roundCoeff mode s n (numDigits n - p) ≤ 10 ^ p := by
  have hlt : n / 10 ^ (numDigits n - p) < 10 ^ p := by
    rw [Nat.div_lt_iff_lt_mul (by positivity), ← pow_add]
    exact lt_of_lt_of_le (lt_pow_numDigits n) (Nat.pow_le_pow_right (by omega) (by omega))
  cases mode <;> simp only [roundCoeff] <;> split <;> omega

/-- The size of a number that is not zero, by its digits. -/
theorem abs_toRat_bounds {d : Decimal} (hz : d.coeff ≠ 0) :
    (10 : ℚ) ^ ((numDigits d.coeff : Int) - 1 + d.exp) ≤ |d.toRat| ∧ |d.toRat| < (10 : ℚ) ^ ((numDigits d.coeff : Int) + d.exp) := by
  have hpos := numDigits_pos d.coeff
  have he : (0 : ℚ) < (10 : ℚ) ^ d.exp := zpow_pos (by norm_num) _
  rw [abs_toRat, zpow_add₀ (by norm_num), zpow_add₀ (by norm_num), mul_le_mul_iff_left₀ he, mul_lt_mul_iff_left₀ he, zpow_natCast,
    show ((numDigits d.coeff : Int) - 1) = ((numDigits d.coeff - 1 : Nat) : Int) by omega, zpow_natCast]
  exact ⟨by exact_mod_cast pow_numDigits_le hz, by exact_mod_cast lt_pow_numDigits d.coeff⟩

/-- A number well inside the range of a context is fitted, and moved by at most a unit of its last place. -/
theorem fix_error {d : Decimal} (hz : d.coeff ≠ 0) (hlow : (10 : ℚ) ^ c.emin ≤ |d.toRat|) (hhigh : |d.toRat| < (10 : ℚ) ^ c.emax) :
    ∃ r, fix c d = .ok r ∧ |r.toRat - d.toRat| * 10 ^ c.prec ≤ 10 * |d.toRat| := by
  obtain ⟨hbelow, habove⟩ := abs_toRat_bounds hz
  have hmax : (numDigits d.coeff : Int) - 1 + d.exp < c.emax := (zpow_lt_zpow_iff_right₀ (by norm_num)).mp (lt_of_le_of_lt hbelow hhigh)
  have hmin : c.emin < (numDigits d.coeff : Int) + d.exp := (zpow_lt_zpow_iff_right₀ (by norm_num)).mp (lt_of_le_of_lt hlow habove)
  have hself : |d.toRat - d.toRat| * 10 ^ c.prec ≤ 10 * |d.toRat| := by
    rw [sub_self, abs_zero, zero_mul]
    positivity
  generalize hexpMin : (numDigits d.coeff : Int) + d.exp - c.prec = expMin
  have hover : ¬c.etop < expMin := by
    unfold DecimalContext.etop
    omega
  have htiny : max expMin c.etiny = expMin := by
    unfold DecimalContext.etiny
    omega
  by_cases hlong : d.exp < expMin
  · have hk : (expMin - d.exp).toNat = numDigits d.coeff - c.prec := by omega
    generalize hq : roundCoeff .halfEven d.sign d.coeff (numDigits d.coeff - c.prec) = q
    have hle : q ≤ 10 ^ c.prec := hq ▸ roundCoeff_le .halfEven d.sign (by omega)
    -- a unit of the last place, relative to the number
    have hunit : ∀ r : Decimal, r.toRat = toRat ⟨d.sign, q, expMin⟩ → |r.toRat - d.toRat| * 10 ^ c.prec ≤ 10 * |d.toRat| := by
      intro r hr
      have hexact : d.toRat = unit d.sign * ((d.coeff : ℚ) / 10 ^ (numDigits d.coeff - c.prec) * (10 : ℚ) ^ expMin) := by
        have hshift : (10 : ℚ) ^ expMin = (10 : ℚ) ^ (numDigits d.coeff - c.prec) * (10 : ℚ) ^ d.exp := by
          rw [← zpow_natCast, ← zpow_add₀ (by norm_num)]
          congr 1
          omega
        obtain ⟨s, n, e⟩ := d
        rw [toRat_eq_unit, hshift]
        field_simp
      have herror : |r.toRat - d.toRat| ≤ (10 : ℚ) ^ expMin := by
        have hclose := abs_roundCoeff_sub_le .halfEven d.sign d.coeff (numDigits d.coeff - c.prec)
        have he : (0 : ℚ) < (10 : ℚ) ^ expMin := zpow_pos (by norm_num) _
        rw [hq] at hclose
        rw [hr, hexact, toRat_eq_unit, ← mul_sub, abs_unit_mul, ← sub_mul, abs_mul, abs_of_pos he]
        exact mul_le_of_le_one_left he.le hclose
      calc |r.toRat - d.toRat| * 10 ^ c.prec ≤ (10 : ℚ) ^ expMin * 10 ^ c.prec := mul_le_mul_of_nonneg_right herror (by positivity)
        _ = 10 * (10 : ℚ) ^ ((numDigits d.coeff : Int) - 1 + d.exp) := by
          rw [← zpow_natCast, ← zpow_add₀ (by norm_num), ← zpow_one_add₀ (by norm_num)]
          congr 1
          omega
        _ ≤ 10 * |d.toRat| := by linarith
    by_cases hcarry : c.prec < numDigits q
    · -- the next power of ten loses its last zero
      have hpow : q = 10 ^ c.prec := by
        refine le_antisymm hle ?_
        by_contra hlt
        have hdigits := numDigits_le_of_lt c.prec_pos (not_le.mp hlt)
        omega
      have hdvd : 10 ^ 1 ∣ q := hpow ▸ pow_dvd_pow 10 c.prec_pos
      refine ⟨⟨d.sign, q / 10, expMin + 1⟩, ?_, hunit _ ?_⟩
      · have htop : ¬c.etop < expMin + 1 := by
          unfold DecimalContext.etop
          omega
        simp only [fix, hz, if_false, hexpMin, hover, htiny, hlong, if_true, hk, hq, hcarry, htop]
      · have hvalue := toRat_div_pow (s := d.sign) (e := expMin) hdvd
        rw [pow_one] at hvalue
        exact hvalue
    · refine ⟨⟨d.sign, q, expMin⟩, ?_, hunit _ rfl⟩
      simp only [fix, hz, if_false, hexpMin, hover, htiny, hlong, if_true, hk, hq, hcarry]
  · refine ⟨d, ?_, hself⟩
    simp only [fix, hz, if_false, hexpMin, hover, htiny, hlong]

/-! ## The quotient -/

/-- What a quotient is fitted from is near the exact quotient, relative to its size. -/
theorem div_prefit {a b : Decimal} (ha : a.coeff ≠ 0) (hb : b.coeff ≠ 0) :
    ∃ d : Decimal, div c a b = fix c d ∧ d.coeff ≠ 0 ∧ |d.toRat - a.toRat / b.toRat| * 10 ^ c.prec ≤ |a.toRat / b.toRat| := by
  obtain ⟨q, e, hdiv, hq, hexact | ⟨num, den, hden, hrem, rfl, hpow, habs⟩⟩ := div_cases (c := c) ha hb
  · refine ⟨_, hdiv, hq, ?_⟩
    rw [hexact, sub_self, abs_zero, zero_mul]
    positivity
  · refine ⟨_, hdiv, hq, ?_⟩
    have he : (0 : ℚ) < (10 : ℚ) ^ e := zpow_pos (by norm_num) _
    have hden0 : (0 : ℚ) < den := by exact_mod_cast hden
    have hquotient : a.toRat / b.toRat = unit (xor a.sign b.sign) * ((num : ℚ) / den * (10 : ℚ) ^ e) := by
      have hnonneg : (0 : ℚ) ≤ (a.coeff : ℚ) / b.coeff * (10 : ℚ) ^ (a.exp - b.exp) :=
        mul_nonneg (div_nonneg (Nat.cast_nonneg _) (Nat.cast_nonneg _)) (zpow_pos (by norm_num) _).le
      rw [div_toRat, abs_unit_mul, abs_of_nonneg hnonneg] at habs
      rw [div_toRat, habs]
    -- the sticky digit is less than one away from the quotient of the coefficients
    have hclose : |(sticky num den : ℚ) - (num : ℚ) / den| ≤ 1 := by
      have hsum : (num : ℚ) = den * ((num / den : Nat) : ℚ) + ((num % den : Nat) : ℚ) := by
        rw [← Nat.cast_mul, ← Nat.cast_add, Nat.div_add_mod]
      have hlt : ((num % den : Nat) : ℚ) < den := by exact_mod_cast Nat.mod_lt num hden
      have hnonneg : (0 : ℚ) ≤ ((num % den : Nat) : ℚ) := Nat.cast_nonneg _
      have hfloor : ((num / den : Nat) : ℚ) ≤ (num : ℚ) / den := by
        rw [le_div_iff₀ hden0]
        linarith
      have hceil : (num : ℚ) / den ≤ ((num / den : Nat) : ℚ) + 1 := by
        rw [div_le_iff₀ hden0]
        linarith
      unfold sticky
      rw [abs_le]
      split
      · push_cast
        exact ⟨by linarith, by linarith⟩
      · exact ⟨by linarith, by linarith⟩
    rw [hquotient, toRat_eq_unit, ← mul_sub, abs_unit_mul, abs_unit_mul, ← sub_mul, abs_mul, abs_mul, abs_of_pos he]
    calc |(sticky num den : ℚ) - (num : ℚ) / den| * (10 : ℚ) ^ e * 10 ^ c.prec ≤ 1 * (10 : ℚ) ^ e * 10 ^ c.prec := by gcongr
      _ ≤ |(num : ℚ) / den| * (10 : ℚ) ^ e := by
        rw [one_mul, mul_comm]
        exact mul_le_mul_of_nonneg_right (hpow.trans (le_abs_self _)) he.le

/-- A quotient well inside the range of a context is near the exact one, relative to its size. -/
theorem div_error {a b : Decimal} (ha : a.coeff ≠ 0) (hb : b.coeff ≠ 0) (hlow : (10 : ℚ) ^ (c.emin + 1) ≤ |a.toRat / b.toRat|)
    (hhigh : |a.toRat / b.toRat| < (10 : ℚ) ^ (c.emax - 1)) :
    ∃ r, div c a b = .ok r ∧ |r.toRat - a.toRat / b.toRat| * 10 ^ c.prec ≤ 100 * |a.toRat / b.toRat| := by
  obtain ⟨d, hdiv, hz, hd⟩ := div_prefit (c := c) ha hb
  generalize a.toRat / b.toRat = x at *
  have hten : (10 : ℚ) ≤ 10 ^ c.prec := by
    calc (10 : ℚ) = 10 ^ 1 := (pow_one 10).symm
      _ ≤ 10 ^ c.prec := pow_le_pow_right₀ (by norm_num) c.prec_pos
  have hmoved : |d.toRat - x| * 10 ≤ |x| := (mul_le_mul_of_nonneg_left hten (abs_nonneg _)).trans hd
  have hd_le : |d.toRat| ≤ |x| + |d.toRat - x| := by
    calc |d.toRat| = |x + (d.toRat - x)| := by rw [add_sub_cancel]
      _ ≤ |x| + |d.toRat - x| := abs_add_le _ _
  have hx_le : |x| ≤ |d.toRat| + |d.toRat - x| := by
    calc |x| = |d.toRat - (d.toRat - x)| := by rw [sub_sub_cancel]
      _ ≤ |d.toRat| + |d.toRat - x| := abs_sub _ _
  have hx0 : 0 ≤ |x| := abs_nonneg x
  obtain ⟨r, hr, herror⟩ := fix_error (c := c) hz (by
    rw [zpow_add_one₀ (by norm_num)] at hlow
    linarith) (by
    rw [zpow_sub_one₀ (by norm_num)] at hhigh
    linarith)
  refine ⟨r, hdiv.trans hr, ?_⟩
  have htriangle : |r.toRat - x| ≤ |r.toRat - d.toRat| + |d.toRat - x| := abs_sub_le _ _ _
  have hpow : (0 : ℚ) ≤ 10 ^ c.prec := by positivity
  calc |r.toRat - x| * 10 ^ c.prec ≤ (|r.toRat - d.toRat| + |d.toRat - x|) * 10 ^ c.prec := mul_le_mul_of_nonneg_right htriangle hpow
    _ = |r.toRat - d.toRat| * 10 ^ c.prec + |d.toRat - x| * 10 ^ c.prec := add_mul _ _ _
    _ ≤ 100 * |x| := by linarith

/-! ## Rounding twice -/

/-- Two numbers nearer to each other than the first is to a tie are rounded half up to the same. -/
theorem roundHalfUp_congr {x y δ : ℚ} {places : Nat} (hx : 0 ≤ x) (hy : 0 ≤ y) (hclose : |y - x| ≤ δ)
    (hgap : ∀ m : Nat, δ * 10 ^ places < |x * 10 ^ places + 1 / 2 - m|) : roundHalfUp y places = roundHalfUp x places := by
  have hp : (0 : ℚ) < 10 ^ places := by positivity
  have hfloor : ⌊y * 10 ^ places + 1 / 2⌋₊ = ⌊x * 10 ^ places + 1 / 2⌋₊ := by
    have hx' : (0 : ℚ) ≤ x * 10 ^ places + 1 / 2 := by positivity
    have hy' : (0 : ℚ) ≤ y * 10 ^ places + 1 / 2 := by positivity
    have hbelow := Nat.floor_le hx'
    have habove := Nat.lt_floor_add_one (x * 10 ^ places + 1 / 2)
    generalize ⌊x * 10 ^ places + 1 / 2⌋₊ = n at *
    have hgap0 := hgap n
    have hgap1 := hgap (n + 1)
    rw [abs_of_nonneg (by linarith)] at hgap0
    push_cast at hgap1
    rw [abs_of_neg (by linarith)] at hgap1
    have hmoved : |y * 10 ^ places - x * 10 ^ places| ≤ δ * 10 ^ places := by
      rw [← sub_mul, abs_mul, abs_of_pos hp]
      exact mul_le_mul_of_nonneg_right hclose hp.le
    obtain ⟨hleft, hright⟩ := abs_le.mp hmoved
    rw [Nat.floor_eq_iff hy']
    exact ⟨by linarith, by linarith⟩
  rw [roundHalfUp, roundHalfUp, abs_of_nonneg hx, abs_of_nonneg hy, hfloor, decide_eq_false (not_lt.mpr hx),
    decide_eq_false (not_lt.mpr hy)]

end Decimal

end Py
