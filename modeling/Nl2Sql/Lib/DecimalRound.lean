import Mathlib.Tactic.Positivity
import Nl2Sql.Lib.DecimalExact

/-!
# Rounding and underflow

What a rounding mode selects: of the integers around a rational the one that is nearest, a tie going away from zero, to the even one or
towards zero, or the floor, or the ceiling. Bringing a decimal to an exponent selects so for the exact number, and quantizing does that or
signals. A product or a quotient of numbers that are not zero is flushed to zero exactly where it is at most half of the least subnormal
number of the context.
-/

namespace Py

/-- The integer a rounding mode selects for a rational. -/
def Rounding.Selects : Rounding → ℚ → ℤ → Prop
  | .halfUp, x, n => 2 * |x - n| ≤ 1 ∧ (2 * |x - n| = 1 → |x| < |(n : ℚ)|)
  | .halfEven, x, n => 2 * |x - n| ≤ 1 ∧ (2 * |x - n| = 1 → Even n)
  | .halfDown, x, n => 2 * |x - n| ≤ 1 ∧ (2 * |x - n| = 1 → |(n : ℚ)| < |x|)
  | .floor, x, n => (n : ℚ) ≤ x ∧ x < n + 1
  | .ceiling, x, n => x ≤ n ∧ (n : ℚ) < x + 1

namespace Rounding

/-- Two integers that are both nearest differ at a tie only. -/
theorem nearest_cases {x : ℚ} {n m : ℤ} (hn : 2 * |x - n| ≤ 1) (hm : 2 * |x - m| ≤ 1) :
    n = m ∨ (n + 1 = m ∧ x = n + 1 / 2) ∨ (m + 1 = n ∧ x = m + 1 / 2) := by
  rcases lt_trichotomy n m with hlt | heq | hlt
  · refine .inr (.inl ?_)
    have h1 := (abs_le.mp (by linarith : |x - n| ≤ 1 / 2)).2
    have h2 := (abs_le.mp (by linarith : |x - m| ≤ 1 / 2)).1
    have hcast : (n : ℚ) + 1 ≤ m := by exact_mod_cast hlt
    have hm : (m : ℚ) = n + 1 := by linarith
    exact ⟨by exact_mod_cast hm.symm, by linarith⟩
  · exact .inl heq
  · refine .inr (.inr ?_)
    have h1 := (abs_le.mp (by linarith : |x - n| ≤ 1 / 2)).1
    have h2 := (abs_le.mp (by linarith : |x - m| ≤ 1 / 2)).2
    have hcast : (m : ℚ) + 1 ≤ n := by exact_mod_cast hlt
    have hn : (n : ℚ) = m + 1 := by linarith
    exact ⟨by exact_mod_cast hn.symm, by linarith⟩

/-- Of two neighbours of a tie, one is nearer to zero and the other farther. -/
theorem tie_abs {x : ℚ} {n : ℤ} (hx : x = n + 1 / 2) :
    (|(n : ℚ)| < |x| ∧ |x| < |((n + 1 : ℤ) : ℚ)|) ∨ (|((n + 1 : ℤ) : ℚ)| < |x| ∧ |x| < |(n : ℚ)|) := by
  push_cast
  rcases le_or_gt 0 n with hn | hn
  · have hcast : (0 : ℚ) ≤ n := by exact_mod_cast hn
    rw [abs_of_nonneg hcast, abs_of_nonneg (by linarith : 0 ≤ x), abs_of_nonneg (by linarith : (0 : ℚ) ≤ n + 1)]
    exact .inl ⟨by linarith, by linarith⟩
  · have hcast : (n : ℚ) + 1 ≤ 0 := by exact_mod_cast hn
    rw [abs_of_nonpos (by linarith : (n : ℚ) ≤ 0), abs_of_nonpos (by linarith : x ≤ 0), abs_of_nonpos hcast]
    exact .inr ⟨by linarith, by linarith⟩

theorem tie_distance {x : ℚ} {n : ℤ} (hx : x = n + 1 / 2) : 2 * |x - n| = 1 ∧ 2 * |x - ((n + 1 : ℤ) : ℚ)| = 1 := by
  push_cast
  have h1 : x - n = 1 / 2 := by linarith
  have h2 : x - ((n : ℚ) + 1) = -(1 / 2) := by linarith
  rw [h1, h2, abs_neg, abs_of_pos (by norm_num : (0 : ℚ) < 1 / 2)]
  norm_num

/-- A mode selects one integer. -/
theorem Selects.unique {mode : Rounding} {x : ℚ} {n m : ℤ} (hn : mode.Selects x n) (hm : mode.Selects x m) : n = m := by
  -- of a tie and its two neighbours
  have htie : ∀ {k : ℤ}, x = k + 1 / 2 → mode.Selects x k → mode.Selects x (k + 1) → False := by
    intro k hx hk hk'
    obtain ⟨hd, hd'⟩ := tie_distance hx
    cases mode with
    | halfUp =>
      have h1 := hk.2 hd
      have h2 := hk'.2 hd'
      rcases tie_abs hx with ⟨h3, h4⟩ | ⟨h3, h4⟩
      · linarith
      · linarith
    | halfDown =>
      have h1 := hk.2 hd
      have h2 := hk'.2 hd'
      rcases tie_abs hx with ⟨h3, h4⟩ | ⟨h3, h4⟩
      · linarith
      · linarith
    | halfEven =>
      have h1 := hk.2 hd
      have h2 := hk'.2 hd'
      rw [Int.even_add_one] at h2
      exact h2 h1
    | floor =>
      have h1 := hk'.1
      push_cast at h1
      linarith
    | ceiling =>
      have h1 := hk.1
      linarith
  have hnearest : 2 * |x - n| ≤ 1 → 2 * |x - m| ≤ 1 → n = m := by
    intro h1 h2
    rcases nearest_cases h1 h2 with heq | ⟨rfl, hx⟩ | ⟨rfl, hx⟩
    · exact heq
    · exact (htie hx hn hm).elim
    · exact (htie hx hm hn).elim
  cases mode with
  | halfUp => exact hnearest hn.1 hm.1
  | halfEven => exact hnearest hn.1 hm.1
  | halfDown => exact hnearest hn.1 hm.1
  | floor =>
    have h1 : (n : ℚ) < m + 1 := lt_of_le_of_lt hn.1 hm.2
    have h2 : (m : ℚ) < n + 1 := lt_of_le_of_lt hm.1 hn.2
    have h1' : n < m + 1 := by exact_mod_cast h1
    have h2' : m < n + 1 := by exact_mod_cast h2
    omega
  | ceiling =>
    have h1 : (n : ℚ) < m + 1 := lt_of_lt_of_le hn.2 (by linarith [hm.1])
    have h2 : (m : ℚ) < n + 1 := lt_of_lt_of_le hm.2 (by linarith [hn.1])
    have h1' : n < m + 1 := by exact_mod_cast h1
    have h2' : m < n + 1 := by exact_mod_cast h2
    omega

/-- An integer is selected for itself. -/
theorem selects_self (mode : Rounding) (n : ℤ) : mode.Selects n n := by
  have hzero : ¬ (2 * |(n : ℚ) - n| = 1) := by simp
  cases mode with
  | halfUp => exact ⟨by simp, fun h => (hzero h).elim⟩
  | halfEven => exact ⟨by simp, fun h => (hzero h).elim⟩
  | halfDown => exact ⟨by simp, fun h => (hzero h).elim⟩
  | floor => exact ⟨le_refl _, by linarith⟩
  | ceiling => exact ⟨le_refl _, by linarith⟩

end Rounding

namespace Decimal

/-! ## Bringing a number to an exponent -/

/-- The step up of a coefficient, by the fraction that is cut off. -/
def stepsUp (mode : Rounding) (negative : Bool) (q : Nat) (f : ℚ) : Prop :=
  match mode with
  | .halfUp => 1 ≤ 2 * f
  | .halfEven => 1 < 2 * f ∨ (1 = 2 * f ∧ q % 2 = 1)
  | .halfDown => 1 < 2 * f
  | .floor => negative = true ∧ 0 < f
  | .ceiling => negative = false ∧ 0 < f

/-- A rounded coefficient is the whole part, or one more. -/
theorem roundCoeff_cases (mode : Rounding) (s : Bool) (n k : Nat) :
    ∃ (q : Nat) (f : ℚ), (n : ℚ) / 10 ^ k = q + f ∧ 0 ≤ f ∧ f < 1 ∧
      ((stepsUp mode s q f ∧ roundCoeff mode s n k = q + 1) ∨ (¬ stepsUp mode s q f ∧ roundCoeff mode s n k = q)) := by
  have hT : (0 : ℚ) < (10 : ℚ) ^ k := by positivity
  have hTn : 0 < 10 ^ k := by positivity
  have hcast : ((10 ^ k : Nat) : ℚ) = (10 : ℚ) ^ k := by push_cast; rfl
  refine ⟨n / 10 ^ k, ((n % 10 ^ k : Nat) : ℚ) / 10 ^ k, ?_, by positivity, ?_, ?_⟩
  · have hsum : (n : ℚ) = (10 : ℚ) ^ k * ((n / 10 ^ k : Nat) : ℚ) + ((n % 10 ^ k : Nat) : ℚ) := by
      rw [← hcast, ← Nat.cast_mul, ← Nat.cast_add, Nat.div_add_mod]
    rw [hsum]
    field_simp
  · rw [div_lt_one hT, ← hcast]
    exact_mod_cast Nat.mod_lt n hTn
  · have hle : (1 : ℚ) ≤ 2 * (((n % 10 ^ k : Nat) : ℚ) / 10 ^ k) ↔ 10 ^ k ≤ 2 * (n % 10 ^ k) := by
      rw [← mul_div_assoc, le_div_iff₀ hT, one_mul, ← hcast]
      exact_mod_cast Iff.rfl
    have hlt : (1 : ℚ) < 2 * (((n % 10 ^ k : Nat) : ℚ) / 10 ^ k) ↔ 10 ^ k < 2 * (n % 10 ^ k) := by
      rw [← mul_div_assoc, lt_div_iff₀ hT, one_mul, ← hcast]
      exact_mod_cast Iff.rfl
    have heq : (1 : ℚ) = 2 * (((n % 10 ^ k : Nat) : ℚ) / 10 ^ k) ↔ 10 ^ k = 2 * (n % 10 ^ k) := by
      rw [← mul_div_assoc, eq_div_iff hT.ne', one_mul, ← hcast]
      exact_mod_cast Iff.rfl
    have hpos : (0 : ℚ) < ((n % 10 ^ k : Nat) : ℚ) / 10 ^ k ↔ 0 < n % 10 ^ k := by
      rw [lt_div_iff₀ hT, zero_mul]
      exact_mod_cast Iff.rfl
    cases mode with
    | halfUp =>
      simp only [stepsUp, roundCoeff, hle, decide_eq_true_eq]
      by_cases h : 10 ^ k ≤ 2 * (n % 10 ^ k)
      · exact .inl ⟨h, if_pos h⟩
      · exact .inr ⟨h, if_neg h⟩
    | halfEven =>
      simp only [stepsUp, roundCoeff, hlt, heq, decide_eq_true_eq]
      by_cases h : 10 ^ k < 2 * (n % 10 ^ k) ∨ 10 ^ k = 2 * (n % 10 ^ k) ∧ n / 10 ^ k % 2 = 1
      · exact .inl ⟨h, if_pos h⟩
      · exact .inr ⟨h, if_neg h⟩
    | halfDown =>
      simp only [stepsUp, roundCoeff, hlt, decide_eq_true_eq]
      by_cases h : 10 ^ k < 2 * (n % 10 ^ k)
      · exact .inl ⟨h, if_pos h⟩
      · exact .inr ⟨h, if_neg h⟩
    | floor =>
      simp only [stepsUp, roundCoeff, hpos, Bool.and_eq_true, decide_eq_true_eq]
      by_cases h : s = true ∧ 0 < n % 10 ^ k
      · exact .inl ⟨h, if_pos h⟩
      · exact .inr ⟨h, if_neg h⟩
    | ceiling =>
      simp only [stepsUp, roundCoeff, hpos, Bool.and_eq_true, Bool.not_eq_true', decide_eq_true_eq]
      by_cases h : s = false ∧ 0 < n % 10 ^ k
      · exact .inl ⟨h, if_pos h⟩
      · exact .inr ⟨h, if_neg h⟩

theorem signed_mk (s : Bool) (m : Nat) (e : Int) : ((signed ⟨s, m, e⟩ : ℤ) : ℚ) = unit s * m := by
  cases s <;> simp [signed, unit]

theorem abs_unit_mul (s : Bool) (x : ℚ) : |unit s * x| = |x| := by
  cases s <;> simp [unit]

theorem even_signed_iff (s : Bool) (m : Nat) (e : Int) : Even (signed ⟨s, m, e⟩) ↔ Even m := by
  cases s <;> simp [signed]

/-- A rounded coefficient is what the mode selects. -/
theorem roundCoeff_selects (mode : Rounding) (s : Bool) (n k : Nat) (e : Int) :
    mode.Selects (unit s * ((n : ℚ) / 10 ^ k)) (signed ⟨s, roundCoeff mode s n k, e⟩) := by
  obtain ⟨q, f, hn, hf0, hf1, hround⟩ := roundCoeff_cases mode s n k
  have hq : (0 : ℚ) ≤ q := Nat.cast_nonneg q
  rw [hn]
  -- the distance and the magnitudes, without the sign
  have hdistance : ∀ m : Nat, |unit s * (q + f) - (signed ⟨s, m, e⟩ : ℤ)| = |(q : ℚ) + f - m| := by
    intro m
    rw [signed_mk, ← mul_sub, abs_unit_mul]
  have hmagnitude : |unit s * ((q : ℚ) + f)| = q + f := by rw [abs_unit_mul, abs_of_nonneg (by linarith)]
  have hselected : ∀ m : Nat, |((signed ⟨s, m, e⟩ : ℤ) : ℚ)| = m := by
    intro m
    rw [signed_mk, abs_unit_mul, abs_of_nonneg (Nat.cast_nonneg m)]
  have hbelow : |(q : ℚ) + f - (q : Nat)| = f := by rw [add_sub_cancel_left, abs_of_nonneg hf0]
  have habove : |(q : ℚ) + f - ((q + 1 : Nat) : ℚ)| = 1 - f := by
    push_cast
    rw [abs_of_nonpos (by linarith)]
    ring
  cases mode with
  | halfUp =>
    simp only [stepsUp] at hround
    rcases hround with ⟨hup, hr⟩ | ⟨hup, hr⟩
    · rw [hr, Rounding.Selects, hdistance, habove, hmagnitude, hselected]
      push_cast
      exact ⟨by linarith, fun _ => by linarith⟩
    · rw [hr, Rounding.Selects, hdistance, hbelow]
      exact ⟨by linarith, fun h => absurd h (by linarith)⟩
  | halfEven =>
    simp only [stepsUp] at hround
    rcases hround with ⟨hup, hr⟩ | ⟨hup, hr⟩
    · rw [hr, Rounding.Selects, hdistance, habove, even_signed_iff]
      refine ⟨?_, fun h => ?_⟩
      · rcases hup with hup | ⟨hup, -⟩ <;> linarith
      · rcases hup with hup | ⟨-, hodd⟩
        · exact absurd h (by linarith)
        · rw [Nat.even_iff]
          omega
    · rw [hr, Rounding.Selects, hdistance, hbelow, even_signed_iff]
      push Not at hup
      refine ⟨hup.1, fun h => ?_⟩
      have hnot := hup.2 h.symm
      rw [Nat.even_iff]
      omega
  | halfDown =>
    simp only [stepsUp] at hround
    rcases hround with ⟨hup, hr⟩ | ⟨hup, hr⟩
    · rw [hr, Rounding.Selects, hdistance, habove]
      exact ⟨by linarith, fun h => absurd h (by linarith)⟩
    · rw [hr, Rounding.Selects, hdistance, hbelow, hmagnitude, hselected]
      exact ⟨by linarith, fun h => by linarith⟩
  | floor =>
    simp only [stepsUp] at hround
    cases s with
    | true =>
      rcases hround with ⟨⟨-, hup⟩, hr⟩ | ⟨hup, hr⟩
      · rw [hr, Rounding.Selects, signed_mk]
        simp only [unit, if_true]
        push_cast
        exact ⟨by linarith, by linarith⟩
      · rw [hr, Rounding.Selects, signed_mk]
        have hzero : f = 0 := le_antisymm (not_lt.mp fun h => hup ⟨rfl, h⟩) hf0
        simp only [unit, if_true, hzero]
        exact ⟨by linarith, by linarith⟩
    | false =>
      rcases hround with ⟨⟨hs, -⟩, -⟩ | ⟨-, hr⟩
      · cases hs
      · rw [hr, Rounding.Selects, signed_mk]
        simp only [unit, Bool.false_eq_true, if_false]
        exact ⟨by linarith, by linarith⟩
  | ceiling =>
    simp only [stepsUp] at hround
    cases s with
    | false =>
      rcases hround with ⟨⟨-, hup⟩, hr⟩ | ⟨hup, hr⟩
      · rw [hr, Rounding.Selects, signed_mk]
        simp only [unit, Bool.false_eq_true, if_false]
        push_cast
        exact ⟨by linarith, by linarith⟩
      · rw [hr, Rounding.Selects, signed_mk]
        have hzero : f = 0 := le_antisymm (not_lt.mp fun h => hup ⟨rfl, h⟩) hf0
        simp only [unit, Bool.false_eq_true, if_false, hzero]
        exact ⟨by linarith, by linarith⟩
    | true =>
      rcases hround with ⟨⟨hs, -⟩, -⟩ | ⟨-, hr⟩
      · cases hs
      · rw [hr, Rounding.Selects, signed_mk]
        simp only [unit, if_true]
        exact ⟨by linarith, by linarith⟩

/-- A decimal brought to an exponent has the coefficient that the mode selects for the exact number. -/
theorem rescale_selects (mode : Rounding) (d : Decimal) (e : Int) :
    (rescale mode d e).exp = e ∧ mode.Selects (d.toRat * (10 : ℚ) ^ (-e)) (rescale mode d e).signed := by
  have hval : d.toRat * (10 : ℚ) ^ (-e) = unit d.sign * ((d.coeff : ℚ) * (10 : ℚ) ^ (d.exp - e)) := by
    have hunit := toRat_eq_unit d.sign d.coeff d.exp
    rw [show d.toRat = _ from hunit, sub_eq_add_neg, zpow_add₀ (by norm_num)]
    ring
  unfold rescale
  split
  · rename_i hz
    refine ⟨rfl, ?_⟩
    have hzero : d.toRat * (10 : ℚ) ^ (-e) = ((0 : ℤ) : ℚ) := by
      rw [(toRat_eq_zero_iff d).mpr hz, zero_mul, Int.cast_zero]
    have hsigned : signed ⟨d.sign, 0, e⟩ = 0 := by cases d.sign <;> rfl
    rw [hzero, hsigned]
    exact Rounding.selects_self mode 0
  · split
    · rename_i he
      refine ⟨rfl, ?_⟩
      obtain ⟨k, hk⟩ := Int.eq_ofNat_of_zero_le (by omega : 0 ≤ d.exp - e)
      have hself : d.toRat * (10 : ℚ) ^ (-e) = ((signed ⟨d.sign, d.coeff * 10 ^ k, e⟩ : ℤ) : ℚ) := by
        rw [hval, hk, signed_mk, zpow_natCast]
        push_cast
        ring
      rw [hk, Int.toNat_natCast, hself]
      exact Rounding.selects_self mode _
    · rename_i he
      refine ⟨rfl, ?_⟩
      obtain ⟨k, hk⟩ := Int.eq_ofNat_of_zero_le (by omega : 0 ≤ e - d.exp)
      have hexp : d.exp - e = -(k : Int) := by omega
      rw [hval, hk, Int.toNat_natCast, hexp, zpow_neg, zpow_natCast, ← div_eq_mul_inv]
      exact roundCoeff_selects mode d.sign d.coeff k e

/-- A number that is at the exponent stays as it is. -/
theorem rescale_self (mode : Rounding) {d : Decimal} {e : Int} (he : d.exp = e) : rescale mode d e = d := by
  obtain ⟨s, n, x⟩ := d
  subst he
  unfold rescale
  split
  · rename_i hz
    rw [show n = 0 from hz]
  · simp

/-! ## Quantizing -/

theorem lt_numDigits {p n : Nat} (h : 10 ^ p ≤ n) : p < numDigits n := by
  have hn := lt_of_le_of_lt h (lt_pow_numDigits n)
  exact (Nat.pow_lt_pow_iff_right (by omega)).mp hn

theorem div_le_roundCoeff (mode : Rounding) (s : Bool) (n k : Nat) : n / 10 ^ k ≤ roundCoeff mode s n k := by
  cases mode <;> simp only [roundCoeff] <;> split <;> omega

/-- A number with more digits than fit above an exponent has more at it. -/
theorem lt_numDigits_rescale (mode : Rounding) {d : Decimal} {e : Int} {p : Nat} (hz : d.coeff ≠ 0) (h : (p : Int) < d.adjusted - e + 1) :
    p < numDigits (rescale mode d e).coeff := by
  have hlow := pow_numDigits_le hz
  have hpos := numDigits_pos d.coeff
  unfold adjusted at h
  unfold rescale
  rw [if_neg hz]
  split
  · rename_i he
    refine lt_numDigits (le_trans ?_ (Nat.mul_le_mul_right _ hlow))
    rw [← pow_add]
    exact Nat.pow_le_pow_right (by omega) (by omega)
  · rename_i he
    obtain ⟨k, hk⟩ := Int.eq_ofNat_of_zero_le (by omega : 0 ≤ e - d.exp)
    rw [hk, Int.toNat_natCast]
    have hdiv : 10 ^ p ≤ d.coeff / 10 ^ k := by
      rw [Nat.le_div_iff_mul_le (by positivity), ← pow_add]
      exact le_trans (Nat.pow_le_pow_right (by omega) (by omega)) hlow
    exact lt_numDigits (hdiv.trans (div_le_roundCoeff mode d.sign d.coeff k))

/-- A number that fits is kept as it is. -/
theorem fix_eq_self {c : DecimalContext} {d : Decimal} (hdigits : numDigits d.coeff ≤ c.prec) (htiny : c.etiny ≤ d.exp)
    (htop : d.exp ≤ c.etop) : fix c d = .ok d := by
  have hprec := c.prec_pos
  unfold fix
  unfold DecimalContext.etop at *
  split
  · rw [show min (max d.exp c.etiny) c.emax = d.exp by omega]
  · have hover : ¬ (c.emax - c.prec + 1 < (numDigits d.coeff : Int) + d.exp - c.prec) := by omega
    have hexp : ¬ d.exp < max ((numDigits d.coeff : Int) + d.exp - c.prec) c.etiny := by omega
    simp only [hover, hexp, if_false]

/-- Quantizing is rounding, and signals where the rounded coefficient has more digits than the precision. -/
theorem quantize_eq {c : DecimalContext} {mode : Rounding} {d : Decimal} {e : Int} (hc : (c.prec : Int) ≤ c.emax) (htiny : c.etiny ≤ e)
    (he : e ≤ 0) :
    quantize c mode d e =
      if numDigits (rescale mode d e).coeff ≤ c.prec then .ok (rescale mode d e) else .error .invalidOperation := by
  have hprec := c.prec_pos
  have hrange : ¬ (e < c.etiny ∨ c.emax < e) := by omega
  have htop : e ≤ c.etop := by
    unfold DecimalContext.etop
    omega
  obtain ⟨hexp, -⟩ := rescale_selects mode d e
  rw [quantize, if_neg hrange]
  by_cases hz : d.coeff = 0
  · have hzero : rescale mode d e = ⟨d.sign, 0, e⟩ := by rw [rescale, if_pos hz]
    have hdigits : numDigits 0 ≤ c.prec := hprec
    rw [if_pos hz, hzero, if_pos hdigits]
    exact fix_eq_self hdigits htiny htop
  rw [if_neg hz]
  by_cases hlarge : c.emax < d.adjusted ∨ (c.prec : Int) < d.adjusted - e + 1
  · have hmany := lt_numDigits_rescale mode hz (p := c.prec) (by omega : (c.prec : Int) < d.adjusted - e + 1)
    rw [if_pos hlarge, if_neg (by omega)]
  · rw [if_neg hlarge]
    by_cases hdigits : numDigits (rescale mode d e).coeff ≤ c.prec
    · have hfits : ¬ (c.emax < (rescale mode d e).adjusted ∨ c.prec < numDigits (rescale mode d e).coeff) := by
        unfold adjusted
        omega
      rw [if_pos hdigits]
      simp only [hfits, if_false]
      exact fix_eq_self hdigits (by rw [hexp]; exact htiny) (by rw [hexp]; exact htop)
    · have hmany : c.emax < (rescale mode d e).adjusted ∨ c.prec < numDigits (rescale mode d e).coeff := .inr (by omega)
      rw [if_neg hdigits]
      simp only [hmany, if_true]

/-! ## Underflow -/

/-- A number that is not zero and that the context flushes to zero: at most half of the least subnormal number. -/
def Flushes (c : DecimalContext) (x : ℚ) : Prop := 2 * |x| ≤ (10 : ℚ) ^ c.etiny

theorem roundCoeff_halfEven_eq_zero_iff (s : Bool) (n k : Nat) : roundCoeff .halfEven s n k = 0 ↔ 2 * n ≤ 10 ^ k := by
  have hT : 0 < 10 ^ k := by positivity
  simp only [roundCoeff, decide_eq_true_eq]
  generalize 10 ^ k = T at *
  have hn := Nat.div_add_mod n T
  have hr := Nat.mod_lt n hT
  rcases Nat.eq_zero_or_pos (n / T) with hq | hq
  · rw [hq] at hn ⊢
    split <;> omega
  · have hle : T * 1 ≤ T * (n / T) := Nat.mul_le_mul_left T hq
    split <;> omega

/-- A coefficient at an exponent, against half of a power of ten above it. -/
theorem half_pow_iff {n k : Nat} {e m : Int} (hm : m = e + k) : 2 * ((n : ℚ) * (10 : ℚ) ^ e) ≤ (10 : ℚ) ^ m ↔ 2 * n ≤ 10 ^ k := by
  have he : (0 : ℚ) < (10 : ℚ) ^ e := zpow_pos (by norm_num) e
  rw [hm, zpow_add₀ (by norm_num), zpow_natCast, ← mul_assoc, mul_comm ((10 : ℚ) ^ e), mul_le_mul_iff_left₀ he]
  exact_mod_cast Iff.rfl

/-- A coefficient that is not zero at an exponent that is no smaller. -/
theorem not_half_pow {n : Nat} {e m : Int} (hn : n ≠ 0) (hm : m ≤ e) : ¬ 2 * ((n : ℚ) * (10 : ℚ) ^ e) ≤ (10 : ℚ) ^ m := by
  have h1 : (1 : ℚ) ≤ n := by exact_mod_cast Nat.pos_of_ne_zero hn
  have h2 : (10 : ℚ) ^ m ≤ (10 : ℚ) ^ e := zpow_le_zpow_right₀ (by norm_num) hm
  have h3 : (0 : ℚ) < (10 : ℚ) ^ e := zpow_pos (by norm_num) e
  nlinarith

/-- An exact result that is not zero is fitted to zero exactly where the context flushes it. -/
theorem fix_zero_iff {c : DecimalContext} {d : Decimal} (hz : d.coeff ≠ 0) :
    (∃ r, fix c d = .ok r ∧ r.coeff = 0) ↔ Flushes c d.toRat := by
  have hprec := c.prec_pos
  have hmin := c.emin_le
  have hmax := c.emax_ge
  have hpos := numDigits_pos d.coeff
  have htop : c.etiny ≤ c.etop := by
    unfold DecimalContext.etiny DecimalContext.etop
    omega
  rw [Flushes, abs_toRat]
  constructor
  · rintro ⟨r, hr, hr0⟩
    simp only [fix, hz, if_false] at hr
    split at hr
    · cases hr
    · split at hr
      · rename_i hexp
        generalize hm : max ((numDigits d.coeff : Int) + d.exp - c.prec) c.etiny = expMin at *
        obtain ⟨k, hk⟩ := Int.eq_ofNat_of_zero_le (by omega : 0 ≤ expMin - d.exp)
        rw [hk, Int.toNat_natCast] at hr
        have hq : roundCoeff .halfEven d.sign d.coeff k = 0 := by
          split at hr
          · rename_i hlong
            split at hr
            · cases hr
            · cases hr
              -- a coefficient that is too long is not below ten
              have hshort : numDigits (roundCoeff .halfEven d.sign d.coeff k) ≤ 1 :=
                numDigits_le_of_lt le_rfl (by rw [pow_one]; exact (Nat.div_eq_zero_iff_lt (by omega)).mp hr0)
              omega
          · cases hr
            exact hr0
        have hhalf := (roundCoeff_halfEven_eq_zero_iff d.sign d.coeff k).mp hq
        have htiny : expMin = c.etiny := by
          by_contra hne
          have hpow : 10 ^ k ≤ d.coeff := le_trans (Nat.pow_le_pow_right (by omega) (by omega)) (pow_numDigits_le hz)
          omega
        exact (half_pow_iff (by omega : c.etiny = d.exp + k)).mpr hhalf
      · cases hr
        exact absurd hr0 hz
  · intro hflush
    have hexp : d.exp < c.etiny := by
      by_contra hle
      exact not_half_pow hz (not_lt.mp hle) hflush
    obtain ⟨k, hk⟩ := Int.eq_ofNat_of_zero_le (by omega : 0 ≤ c.etiny - d.exp)
    have hhalf := (half_pow_iff (by omega : c.etiny = d.exp + k)).mp hflush
    have hk1 : 1 ≤ k := by omega
    have hdigits : numDigits d.coeff ≤ k := numDigits_le_of_lt hk1 (by omega)
    have hover : ¬ c.etop < (numDigits d.coeff : Int) + d.exp - c.prec := by omega
    have hexpMin : max ((numDigits d.coeff : Int) + d.exp - c.prec) c.etiny = c.etiny := by omega
    have hround : roundCoeff .halfEven d.sign d.coeff (c.etiny - d.exp).toNat = 0 := by
      rw [hk, Int.toNat_natCast]
      exact (roundCoeff_halfEven_eq_zero_iff d.sign d.coeff k).mpr hhalf
    have hzero : ¬ c.prec < numDigits 0 := not_lt.mpr hprec
    refine ⟨⟨d.sign, 0, c.etiny⟩, ?_, rfl⟩
    simp only [fix, hz, if_false, hover, hexpMin, hexp, if_true, hround, hzero]

/-- A product of numbers that are not zero is zero exactly where the context flushes the exact product. -/
theorem mul_zero_iff {c : DecimalContext} {a b : Decimal} (ha : a.coeff ≠ 0) (hb : b.coeff ≠ 0) :
    (∃ r, mul c a b = .ok r ∧ r.coeff = 0) ↔ Flushes c (a.toRat * b.toRat) := by
  rw [mul, fix_zero_iff (Nat.mul_ne_zero ha hb), toRat_product]

/-- The sticky last digit of an inexact quotient stands for what was cut off, below any multiple of five. -/
theorem sticky_le_iff {num den m : Nat} (hden : 0 < den) (hrem : num % den ≠ 0) :
    (if num / den % 5 = 0 then num / den + 1 else num / den) ≤ 5 * m ↔ num ≤ 5 * m * den := by
  have hsum := Nat.div_add_mod num den
  generalize hq : num / den = q at *
  generalize num % den = r at *
  have hlt : num ≤ 5 * m * den ↔ q < 5 * m := by
    constructor
    · intro h
      by_contra hle
      have hmul : 5 * m * den ≤ den * q := by
        rw [Nat.mul_comm]
        exact Nat.mul_le_mul_left den (not_lt.mp hle)
      omega
    · intro h
      have h1 : num < (q + 1) * den := by
        rw [← hq]
        exact Nat.lt_mul_of_div_lt (Nat.lt_succ_self _) hden
      exact h1.le.trans (Nat.mul_le_mul_right den h)
  rw [hlt]
  split <;> omega

/-- The last digit of a quotient of coefficients: where something was cut off, never zero or five. -/
def sticky (num den : Nat) : Nat := if num / den % 5 = 0 then num / den + 1 else num / den

/-- Two coefficients at a shift. -/
theorem quotient_shift {na nb : Nat} (hb : nb ≠ 0) (shift : Int) :
    ((na * 10 ^ shift.toNat : Nat) : ℚ) / ((nb * 10 ^ (-shift).toNat : Nat) : ℚ) = (na : ℚ) / nb * (10 : ℚ) ^ shift := by
  have h10 : (10 : ℚ) ≠ 0 := by norm_num
  have hs : (10 : ℚ) ^ (shift.toNat : Int) = (10 : ℚ) ^ shift * (10 : ℚ) ^ ((-shift).toNat : Int) := by
    rw [← zpow_add₀ h10]
    congr 1
    omega
  have hb0 : (nb : ℚ) ≠ 0 := by exact_mod_cast hb
  push_cast
  rw [← zpow_natCast, ← zpow_natCast, hs]
  field_simp

/-- What a quotient is fitted from: the exact quotient, or one digit more than the precision of it with a sticky last digit. -/
theorem div_cases {c : DecimalContext} {a b : Decimal} (ha : a.coeff ≠ 0) (hb : b.coeff ≠ 0) :
    ∃ (q : Nat) (e : Int), div c a b = fix c ⟨xor a.sign b.sign, q, e⟩ ∧ q ≠ 0 ∧
      (toRat ⟨xor a.sign b.sign, q, e⟩ = a.toRat / b.toRat ∨
        ∃ num den : Nat, 0 < den ∧ num % den ≠ 0 ∧ q = sticky num den ∧ (10 : ℚ) ^ c.prec ≤ (num : ℚ) / den ∧
          |a.toRat / b.toRat| = (num : ℚ) / den * (10 : ℚ) ^ e) := by
  have hq0 : a.toRat / b.toRat ≠ 0 := div_ne_zero (fun h => ha ((toRat_eq_zero_iff a).mp h)) fun h => hb ((toRat_eq_zero_iff b).mp h)
  generalize hshift : (numDigits b.coeff : Int) - numDigits a.coeff + c.prec + 1 = shift
  generalize hnum : a.coeff * 10 ^ shift.toNat = num
  generalize hden : b.coeff * 10 ^ (-shift).toNat = den
  have hden0 : 0 < den := by
    rw [← hden]
    exact Nat.mul_pos (Nat.pos_of_ne_zero hb) (by positivity)
  by_cases hrem : num % den = 0
  · -- an exact quotient is the exact result
    obtain ⟨hz1, hz2⟩ := stripZeros_spec shift.toNat (num / den)
    generalize hstrip : stripZeros shift.toNat (num / den) = st at hz1 hz2
    obtain ⟨q', k⟩ := st
    simp only at hz1 hz2
    have hprod : a.coeff * 10 ^ shift.toNat = num / den * (b.coeff * 10 ^ (-shift).toNat) := by
      rw [hnum, hden, Nat.div_mul_cancel (Nat.dvd_of_mod_eq_zero hrem)]
    have hv : toRat ⟨xor a.sign b.sign, q', a.exp - b.exp - shift + k⟩ = a.toRat / b.toRat := by
      rw [hz2, toRat_div_pow hz1, toRat_eq_unit, div_toRat, toRat_quotient hb hprod]
    have hdiv : div c a b = fix c ⟨xor a.sign b.sign, q', a.exp - b.exp - shift + k⟩ := by
      simp only [div, hb, ha, if_false, hshift, hnum, hden, hrem, if_true, hstrip]
    exact ⟨q', _, hdiv, fun h => hq0 (by rw [← hv, toRat_eq_zero_iff]; exact h), .inl hv⟩
  · have hdiv : div c a b = fix c ⟨xor a.sign b.sign, sticky num den, a.exp - b.exp - shift⟩ := by
      simp only [div, hb, ha, if_false, hshift, hnum, hden, hrem, sticky]
    have hratio : (num : ℚ) / den = (a.coeff : ℚ) / b.coeff * (10 : ℚ) ^ shift := by
      rw [← hnum, ← hden]
      exact quotient_shift hb shift
    refine ⟨_, _, hdiv, ?_, .inr ⟨num, den, hden0, hrem, rfl, ?_, ?_⟩⟩
    · unfold sticky
      split <;> omega
    · rw [hratio, ← zpow_natCast]
      exact pow_le_quotient ha hb hshift.symm
    · have hnonneg : (0 : ℚ) ≤ (a.coeff : ℚ) / b.coeff * (10 : ℚ) ^ (a.exp - b.exp) :=
        mul_nonneg (div_nonneg (Nat.cast_nonneg _) (Nat.cast_nonneg _)) (zpow_pos (by norm_num) _).le
      rw [div_toRat, abs_unit_mul, abs_of_nonneg hnonneg, hratio, mul_assoc, ← zpow_add₀ (by norm_num)]
      congr 2
      omega

/-- A quotient of numbers that are not zero is zero exactly where the context flushes the exact quotient. -/
theorem div_zero_iff {c : DecimalContext} {a b : Decimal} (ha : a.coeff ≠ 0) (hb : b.coeff ≠ 0) :
    (∃ r, div c a b = .ok r ∧ r.coeff = 0) ↔ Flushes c (a.toRat / b.toRat) := by
  obtain ⟨q, e, hdiv, hq', hv | ⟨num, den, hden0, hrem, rfl, hpow, hexact⟩⟩ := div_cases (c := c) ha hb
  · rw [hdiv, fix_zero_iff hq', hv]
  · have hlarge : (1 : ℚ) ≤ (num : ℚ) / den := le_trans (one_le_pow₀ (by norm_num)) hpow
    rw [hdiv, fix_zero_iff hq', Flushes, Flushes, abs_toRat, hexact]
    by_cases hexp : c.etiny ≤ e
    · refine iff_of_false (not_half_pow hq' hexp) ?_
      have h2 : (10 : ℚ) ^ c.etiny ≤ (10 : ℚ) ^ e := zpow_le_zpow_right₀ (by norm_num) hexp
      have h3 : (0 : ℚ) < (10 : ℚ) ^ e := zpow_pos (by norm_num) _
      nlinarith
    · obtain ⟨k, hk⟩ := Int.eq_ofNat_of_zero_le (by omega : 0 ≤ c.etiny - e)
      obtain ⟨j, rfl⟩ : ∃ j, k = j + 1 := ⟨k - 1, by omega⟩
      have he : (0 : ℚ) < (10 : ℚ) ^ e := zpow_pos (by norm_num) _
      have hm : c.etiny = e + ((j + 1 : Nat) : Int) := by omega
      have hsticky := sticky_le_iff (m := 10 ^ j) hden0 hrem
      rw [half_pow_iff hm, hm, zpow_add₀ (by norm_num), zpow_natCast, ← mul_assoc, mul_comm ((10 : ℚ) ^ e),
        mul_le_mul_iff_left₀ he, ← mul_div_assoc, div_le_iff₀ (by exact_mod_cast hden0)]
      have hleft : 2 * sticky num den ≤ 10 ^ (j + 1) ↔ sticky num den ≤ 5 * 10 ^ j := by
        rw [pow_succ]
        omega
      rw [hleft, sticky, hsticky]
      have hright : 2 * num ≤ 10 ^ (j + 1) * den ↔ num ≤ 5 * 10 ^ j * den := by
        have hten : 10 ^ (j + 1) * den = 2 * (5 * 10 ^ j * den) := by ring
        rw [hten]
        omega
      rw [← hright]
      exact_mod_cast Iff.rfl

end Decimal

end Py
