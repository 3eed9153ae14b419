import Mathlib.Algebra.Order.Floor.Semifield
import Mathlib.Data.Rat.Floor
import Nl2Sql.Lib.Decimal

/-!
# When decimal arithmetic is exact

`Fits c q` says the rational `q` is a number of the context `c`: it has a coefficient of at most `prec` digits and an exponent in
range. An operation whose exact result fits returns it: nothing is rounded and nothing is raised. Comparisons are exact always,
and quantizing rounds to the places asked for whenever the result has at most `prec` digits.
-/

namespace Py

/-- A number of the context: a coefficient of at most `prec` digits at an exponent in range. -/
def Fits (c : DecimalContext) (q : ℚ) : Prop :=
  ∃ (n : Int) (e : Int), q = n * (10 : ℚ) ^ e ∧ n.natAbs < 10 ^ c.prec ∧ c.etiny ≤ e ∧ e ≤ c.etop

namespace Decimal

/-! ## Coefficients -/

theorem pow_numDigits_le {n : Nat} (h : n ≠ 0) : 10 ^ (numDigits n - 1) ≤ n :=
  Nat.pow_log_le_self 10 h

theorem lt_pow_numDigits (n : Nat) : n < 10 ^ numDigits n :=
  Nat.lt_pow_succ_log_self (by omega) n

theorem numDigits_pos (n : Nat) : 1 ≤ numDigits n := by
  unfold numDigits
  omega

theorem numDigits_le_of_lt {n k : Nat} (hk : 1 ≤ k) (h : n < 10 ^ k) : numDigits n ≤ k := by
  by_contra hc
  rcases Nat.eq_zero_or_pos n with rfl | hn
  · simp only [numDigits, Nat.log_zero_right] at hc
    omega
  · have h1 := pow_numDigits_le (n := n) (by omega)
    have h2 : 10 ^ k ≤ 10 ^ (numDigits n - 1) := Nat.pow_le_pow_right (by omega) (by omega)
    omega

theorem natAbs_signed (d : Decimal) : d.signed.natAbs = d.coeff := by
  unfold signed
  split <;> simp

theorem signed_eq_zero_iff (d : Decimal) : d.signed = 0 ↔ d.coeff = 0 := by
  rw [← Int.natAbs_eq_zero, natAbs_signed]

theorem toRat_eq_zero_iff (d : Decimal) : d.toRat = 0 ↔ d.coeff = 0 := by
  unfold toRat
  rw [mul_eq_zero, Int.cast_eq_zero, signed_eq_zero_iff]
  constructor
  · rintro (h | h)
    · exact h
    · exact absurd h (zpow_ne_zero _ (by norm_num))
  · exact Or.inl

theorem abs_toRat (d : Decimal) : |d.toRat| = (d.coeff : ℚ) * (10 : ℚ) ^ d.exp := by
  unfold toRat
  rw [abs_mul, abs_of_pos (zpow_pos (by norm_num : (0 : ℚ) < 10) d.exp), ← Int.cast_abs, Int.abs_eq_natAbs, natAbs_signed]
  norm_cast

/-- Two coefficients that stand for one number at two exponents: the one at the smaller exponent is the other with zeros
appended. -/
theorem coeff_eq_of_zpow {a b : Nat} {x y : Int} (hxy : x ≤ y) (h : (a : ℚ) * (10 : ℚ) ^ x = (b : ℚ) * (10 : ℚ) ^ y) :
    a = b * 10 ^ (y - x).toNat := by
  obtain ⟨k, hk⟩ := Int.eq_ofNat_of_zero_le (by omega : 0 ≤ y - x)
  have hy : y = x + k := by omega
  have hx : (10 : ℚ) ^ x ≠ 0 := zpow_ne_zero _ (by norm_num)
  rw [hy, zpow_add₀ (by norm_num), ← mul_assoc, mul_right_comm] at h
  have h' := mul_right_cancel₀ hx h
  rw [hk, Int.toNat_natCast]
  rw [zpow_natCast] at h'
  exact_mod_cast h'

/-- A power of ten times less than `10 ^ p` that reaches `10 ^ m` has an exponent above `m - p`. -/
theorem lt_add_of_pow_le {n p : Nat} {m e : Int} (hn : n < 10 ^ p) (h : (10 : ℚ) ^ m ≤ (n : ℚ) * (10 : ℚ) ^ e) :
    m < p + e := by
  have hn' : (n : ℚ) < (10 : ℚ) ^ (p : Int) := by
    rw [zpow_natCast]
    exact_mod_cast hn
  have hlt : (10 : ℚ) ^ m < (10 : ℚ) ^ ((p : Int) + e) := by
    rw [zpow_add₀ (by norm_num)]
    exact lt_of_le_of_lt h (mul_lt_mul_of_pos_right hn' (zpow_pos (by norm_num) e))
  exact (zpow_lt_zpow_iff_right₀ (by norm_num)).mp hlt

/-- Moving the point of a decimal whose coefficient ends in zeros. -/
theorem toRat_div_pow {s : Bool} {n k : Nat} {e : Int} (h : 10 ^ k ∣ n) :
    toRat ⟨s, n / 10 ^ k, e + k⟩ = toRat ⟨s, n, e⟩ := by
  obtain ⟨m, rfl⟩ := h
  have hm : 10 ^ k * m / 10 ^ k = m := Nat.mul_div_cancel_left m (by positivity)
  simp only [toRat, signed, hm, zpow_add₀ (by norm_num : (10 : ℚ) ≠ 0), zpow_natCast]
  cases s <;> (simp; ring)

theorem roundCoeff_of_dvd (mode : Rounding) (s : Bool) {n k : Nat} (h : 10 ^ k ∣ n) :
    roundCoeff mode s n k = n / 10 ^ k := by
  have hr : n % 10 ^ k = 0 := Nat.mod_eq_zero_of_dvd h
  have hp : 0 < 10 ^ k := by positivity
  cases mode <;> simp [roundCoeff, hr]

/-! ## Fitting a result into the context -/

/-- A result that is a number of the context is kept: fitting it changes its digits at most by trailing zeros. -/
theorem fix_of_fits {c : DecimalContext} {d : Decimal} (h : Fits c d.toRat) :
    ∃ r, fix c d = .ok r ∧ r.toRat = d.toRat := by
  by_cases hz : d.coeff = 0
  · refine ⟨{ d with exp := min (max d.exp c.etiny) c.emax }, by simp [fix, hz], ?_⟩
    rw [(toRat_eq_zero_iff d).mpr hz, toRat_eq_zero_iff]
    exact hz
  obtain ⟨n, e, hq, hn, he1, he2⟩ := h
  -- the number, by its magnitude: the coefficient at its exponent is `n` at `e`
  have habs : (d.coeff : ℚ) * (10 : ℚ) ^ d.exp = (n.natAbs : ℚ) * (10 : ℚ) ^ e := by
    rw [← abs_toRat, hq, abs_mul, abs_of_pos (zpow_pos (by norm_num : (0 : ℚ) < 10) e), ← Int.cast_abs, Nat.cast_natAbs]
  have hlow : (10 : ℚ) ^ ((numDigits d.coeff : Int) - 1 + d.exp) ≤ (n.natAbs : ℚ) * (10 : ℚ) ^ e := by
    rw [← habs, zpow_add₀ (by norm_num)]
    have hd := pow_numDigits_le hz
    have hcast : (numDigits d.coeff : Int) - 1 = ((numDigits d.coeff - 1 : Nat) : Int) := by
      have := numDigits_pos d.coeff
      omega
    refine mul_le_mul_of_nonneg_right ?_ (zpow_pos (by norm_num) _).le
    rw [hcast, zpow_natCast]
    exact_mod_cast hd
  have hlead := lt_add_of_pow_le hn hlow
  have hover : ¬ c.etop < (numDigits d.coeff : Int) + d.exp - c.prec := by omega
  by_cases hexp : d.exp < max ((numDigits d.coeff : Int) + d.exp - c.prec) c.etiny
  · generalize hm : max ((numDigits d.coeff : Int) + d.exp - c.prec) c.etiny = expMin at hexp
    obtain ⟨k, hk⟩ := Int.eq_ofNat_of_zero_le (by omega : 0 ≤ expMin - d.exp)
    have hle : expMin ≤ e := by omega
    have hdvd : 10 ^ k ∣ d.coeff := by
      rw [coeff_eq_of_zpow (by omega : d.exp ≤ e) habs]
      exact Dvd.dvd.mul_left (Nat.pow_dvd_pow 10 (by omega)) _
    have hq' : roundCoeff .halfEven d.sign d.coeff (expMin - d.exp).toNat = d.coeff / 10 ^ k := by
      rw [hk, Int.toNat_natCast]
      exact roundCoeff_of_dvd _ _ hdvd
    have hdig : numDigits (d.coeff / 10 ^ k) ≤ c.prec := by
      refine numDigits_le_of_lt c.prec_pos ?_
      rw [Nat.div_lt_iff_lt_mul (by positivity), ← pow_add]
      exact lt_of_lt_of_le (lt_pow_numDigits d.coeff) (Nat.pow_le_pow_right (by omega) (by omega))
    refine ⟨⟨d.sign, d.coeff / 10 ^ k, expMin⟩, ?_, ?_⟩
    · simp only [fix, hz, if_false, hover, hm, hexp, if_true, hq']
      rw [if_neg (by omega)]
    · have hem : expMin = d.exp + k := by omega
      rw [hem]
      exact toRat_div_pow hdvd
  · refine ⟨d, ?_, rfl⟩
    simp only [fix, hz, if_false, hover, hexp]

/-! ## The operations -/

/-- The signed coefficient at a smaller exponent stands for the same number. -/
theorem scaled_mul_zpow (d : Decimal) {e : Int} (h : e ≤ d.exp) : (d.scaled e : ℚ) * (10 : ℚ) ^ e = d.toRat := by
  obtain ⟨k, hk⟩ := Int.eq_ofNat_of_zero_le (by omega : 0 ≤ d.exp - e)
  have he : d.exp = e + k := by omega
  simp only [scaled, toRat, hk, Int.toNat_natCast]
  rw [he, zpow_add₀ (by norm_num), zpow_natCast]
  push_cast
  ring

theorem toRat_ofSigned (n e : Int) : toRat ⟨decide (n < 0), n.natAbs, e⟩ = n * (10 : ℚ) ^ e := by
  have hs : signed ⟨decide (n < 0), n.natAbs, e⟩ = n := by
    simp only [signed, decide_eq_true_eq]
    split <;> omega
  simp only [toRat, hs]

theorem toRat_neg (d : Decimal) : d.neg.toRat = -d.toRat := by
  obtain ⟨s, n, e⟩ := d
  cases s <;> simp [toRat, neg, signed]

theorem toRat_ofInt (n : Int) : (ofInt n).toRat = n := by
  rw [ofInt, toRat_ofSigned]
  simp

/-- The exact sum, before it is fitted. -/
theorem add_eq_fix (c : DecimalContext) (a b : Decimal) : ∃ d, add c a b = fix c d ∧ d.toRat = a.toRat + b.toRat := by
  by_cases h : a.coeff = 0 ∧ b.coeff = 0
  · refine ⟨⟨a.sign && b.sign, 0, min a.exp b.exp⟩, by simp [add, h], ?_⟩
    rw [(toRat_eq_zero_iff a).mpr h.1, (toRat_eq_zero_iff b).mpr h.2, add_zero, toRat_eq_zero_iff]
  · set e := min a.exp b.exp with he
    refine ⟨⟨decide (a.scaled e + b.scaled e < 0), (a.scaled e + b.scaled e).natAbs, e⟩, by simp only [add, h, if_false, he], ?_⟩
    rw [toRat_ofSigned]
    push_cast
    rw [add_mul, scaled_mul_zpow a (min_le_left _ _), scaled_mul_zpow b (min_le_right _ _)]

theorem add_of_fits {c : DecimalContext} {a b : Decimal} (h : Fits c (a.toRat + b.toRat)) :
    ∃ r, add c a b = .ok r ∧ r.toRat = a.toRat + b.toRat := by
  obtain ⟨d, hd, hv⟩ := add_eq_fix c a b
  rw [hd, ← hv]
  exact fix_of_fits (hv ▸ h)

theorem sub_of_fits {c : DecimalContext} {a b : Decimal} (h : Fits c (a.toRat - b.toRat)) :
    ∃ r, sub c a b = .ok r ∧ r.toRat = a.toRat - b.toRat := by
  rw [sub_eq_add_neg, ← toRat_neg] at h ⊢
  exact add_of_fits h

/-- The exact product, before it is fitted. -/
theorem toRat_product (a b : Decimal) : toRat ⟨xor a.sign b.sign, a.coeff * b.coeff, a.exp + b.exp⟩ = a.toRat * b.toRat := by
  simp only [toRat, signed, zpow_add₀ (by norm_num : (10 : ℚ) ≠ 0)]
  cases a.sign <;> cases b.sign <;> (simp; ring)

theorem mul_of_fits {c : DecimalContext} {a b : Decimal} (h : Fits c (a.toRat * b.toRat)) :
    ∃ r, mul c a b = .ok r ∧ r.toRat = a.toRat * b.toRat := by
  have hv := toRat_product a b
  rw [mul, ← hv]
  exact fix_of_fits (hv ▸ h)

/-- What stripping zeros does: it divides by a power of ten that divides. -/
theorem stripZeros_spec (k q : Nat) :
    10 ^ (stripZeros k q).2 ∣ q ∧ (stripZeros k q).1 = q / 10 ^ (stripZeros k q).2 := by
  induction k generalizing q with
  | zero => simp [stripZeros]
  | succ k ih =>
    by_cases h : q % 10 = 0
    · obtain ⟨hd, hv⟩ := ih (q / 10)
      simp only [stripZeros, h, if_true]
      have hq : q = 10 * (q / 10) := by omega
      refine ⟨?_, ?_⟩
      · rw [pow_succ', hq]
        exact Nat.mul_dvd_mul_left 10 (by rwa [Nat.mul_div_cancel_left _ (by omega)])
      · rw [hv, pow_succ', Nat.div_div_eq_div_mul]
    · simp [stripZeros, h]

/-- The exact quotient of two coefficients at a shift, and the number it stands for. -/
theorem toRat_quotient {na nb q : Nat} {shift e : Int} (hb : nb ≠ 0)
    (hq : na * 10 ^ shift.toNat = q * (nb * 10 ^ (-shift).toNat)) :
    (q : ℚ) * (10 : ℚ) ^ (e - shift) = (na : ℚ) / nb * (10 : ℚ) ^ e := by
  have hb' : (nb : ℚ) ≠ 0 := by exact_mod_cast hb
  have h10 : (10 : ℚ) ≠ 0 := by norm_num
  have hcast : (na : ℚ) * (10 : ℚ) ^ (shift.toNat : Int) = q * (nb * (10 : ℚ) ^ ((-shift).toNat : Int)) := by
    rw [zpow_natCast, zpow_natCast]
    exact_mod_cast hq
  have hs : (10 : ℚ) ^ (shift.toNat : Int) = (10 : ℚ) ^ shift * (10 : ℚ) ^ ((-shift).toNat : Int) := by
    rw [← zpow_add₀ h10]
    congr 1
    omega
  have hp : (10 : ℚ) ^ ((-shift).toNat : Int) ≠ 0 := zpow_ne_zero _ h10
  have hsz : (10 : ℚ) ^ shift ≠ 0 := zpow_ne_zero _ h10
  rw [hs] at hcast
  have hmain : (na : ℚ) * (10 : ℚ) ^ shift = q * nb := by
    apply mul_right_cancel₀ hp
    rw [mul_assoc, hcast]
    ring
  rw [zpow_sub₀ h10]
  field_simp
  rw [← hmain]
  ring

/-- The factor a sign stands for. -/
def unit (s : Bool) : ℚ := if s then -1 else 1

theorem toRat_eq_unit (s : Bool) (n : Nat) (e : Int) : toRat ⟨s, n, e⟩ = unit s * ((n : ℚ) * (10 : ℚ) ^ e) := by
  cases s <;> simp [toRat, signed, unit]

theorem div_toRat (a b : Decimal) :
    a.toRat / b.toRat = unit (xor a.sign b.sign) * ((a.coeff : ℚ) / b.coeff * (10 : ℚ) ^ (a.exp - b.exp)) := by
  obtain ⟨sa, na, ea⟩ := a
  obtain ⟨sb, nb, eb⟩ := b
  rw [toRat_eq_unit, toRat_eq_unit, zpow_sub₀ (by norm_num)]
  cases sa <;> cases sb <;> simp only [unit, Bool.xor_false, Bool.xor_true, Bool.not_false, Bool.not_true, if_true, if_false,
    Bool.false_eq_true] <;> ring

/-- The quotient at the shift has more digits than the precision. -/
theorem pow_le_quotient {c : DecimalContext} {na nb : Nat} (ha : na ≠ 0) (hb : nb ≠ 0) {shift : Int}
    (hshift : shift = (numDigits nb : Int) - numDigits na + c.prec + 1) :
    (10 : ℚ) ^ (c.prec : Int) ≤ (na : ℚ) / nb * (10 : ℚ) ^ shift := by
  have h10 : (10 : ℚ) ≠ 0 := by norm_num
  have hb0 : (0 : ℚ) < nb := by exact_mod_cast Nat.pos_of_ne_zero hb
  have h1 : (10 : ℚ) ^ ((numDigits na : Int) - 1) ≤ na := by
    have hcast : (numDigits na : Int) - 1 = ((numDigits na - 1 : Nat) : Int) := by
      have := numDigits_pos na
      omega
    rw [hcast, zpow_natCast]
    exact_mod_cast pow_numDigits_le ha
  have h2 : (nb : ℚ) ≤ (10 : ℚ) ^ (numDigits nb : Int) := by
    rw [zpow_natCast]
    exact_mod_cast (lt_pow_numDigits nb).le
  calc (10 : ℚ) ^ (c.prec : Int)
      = (10 : ℚ) ^ ((numDigits na : Int) - 1) / (10 : ℚ) ^ (numDigits nb : Int) * (10 : ℚ) ^ shift := by
        rw [← zpow_sub₀ h10, ← zpow_add₀ h10]
        congr 1
        omega
    _ ≤ (na : ℚ) / nb * (10 : ℚ) ^ shift := by
        refine mul_le_mul_of_nonneg_right ?_ (zpow_pos (by norm_num) _).le
        exact div_le_div₀ (Nat.cast_nonneg _) h1 hb0 h2

/-- A quotient that is a number of the context leaves no remainder at one digit more than the precision. -/
theorem quotient_dvd {c : DecimalContext} {na nb : Nat} {ideal : Int} (ha : na ≠ 0) (hb : nb ≠ 0) {n : Nat} {e : Int}
    (hn : n < 10 ^ c.prec) (hv : (na : ℚ) / nb * (10 : ℚ) ^ ideal = (n : ℚ) * (10 : ℚ) ^ e) (shift : Int)
    (hshift : shift = (numDigits nb : Int) - numDigits na + c.prec + 1) :
    nb * 10 ^ (-shift).toNat ∣ na * 10 ^ shift.toNat := by
  have h10 : (10 : ℚ) ≠ 0 := by norm_num
  have hb0 : (0 : ℚ) < nb := by exact_mod_cast Nat.pos_of_ne_zero hb
  -- the quotient at the shift is at least `10 ^ prec`, so `n` stands at a positive power of ten there
  have hval : (na : ℚ) / nb * (10 : ℚ) ^ shift = (n : ℚ) * (10 : ℚ) ^ (e - ideal + shift) := by
    have hi : (10 : ℚ) ^ ideal ≠ 0 := zpow_ne_zero _ h10
    apply mul_right_cancel₀ hi
    rw [mul_right_comm, hv, zpow_add₀ h10, zpow_sub₀ h10]
    field_simp
  have hbig : (10 : ℚ) ^ (c.prec : Int) ≤ (n : ℚ) * (10 : ℚ) ^ (e - ideal + shift) := by
    rw [← hval]
    exact pow_le_quotient ha hb hshift
  have hpos := lt_add_of_pow_le hn hbig
  obtain ⟨k, hk⟩ := Int.eq_ofNat_of_zero_le (by omega : 0 ≤ e - ideal + shift)
  rw [hk, zpow_natCast] at hval
  refine ⟨n * 10 ^ k, ?_⟩
  have hs : (10 : ℚ) ^ (shift.toNat : Int) = (10 : ℚ) ^ shift * (10 : ℚ) ^ ((-shift).toNat : Int) := by
    rw [← zpow_add₀ h10]
    congr 1
    omega
  have hgoal : (na : ℚ) * (10 : ℚ) ^ (shift.toNat : Int) = nb * (10 : ℚ) ^ ((-shift).toNat : Int) * (n * (10 : ℚ) ^ k) := by
    rw [hs, ← hval]
    field_simp
  rw [zpow_natCast, zpow_natCast] at hgoal
  exact_mod_cast hgoal

theorem div_of_fits {c : DecimalContext} {a b : Decimal} (hb : b.coeff ≠ 0) (h : Fits c (a.toRat / b.toRat)) :
    ∃ r, div c a b = .ok r ∧ r.toRat = a.toRat / b.toRat := by
  by_cases ha : a.coeff = 0
  · have hz : toRat ⟨xor a.sign b.sign, 0, a.exp - b.exp⟩ = a.toRat / b.toRat := by
      rw [(toRat_eq_zero_iff a).mpr ha, zero_div, toRat_eq_zero_iff]
    simp only [div, hb, ha, if_true, if_false]
    rw [← hz]
    exact fix_of_fits (hz ▸ h)
  have hfits := h
  obtain ⟨n, e, hq, hn, -, -⟩ := h
  generalize hshift : (numDigits b.coeff : Int) - numDigits a.coeff + c.prec + 1 = shift
  have hmag : (a.coeff : ℚ) / b.coeff * (10 : ℚ) ^ (a.exp - b.exp) = (n.natAbs : ℚ) * (10 : ℚ) ^ e := by
    have hnn : (0 : ℚ) ≤ (a.coeff : ℚ) / b.coeff * (10 : ℚ) ^ (a.exp - b.exp) :=
      mul_nonneg (div_nonneg (Nat.cast_nonneg _) (Nat.cast_nonneg _)) (zpow_pos (by norm_num) _).le
    have hu : |unit (xor a.sign b.sign)| = 1 := by
      unfold unit
      split <;> simp
    have habs := congrArg (fun x : ℚ => |x|) hq
    simp only [div_toRat, abs_mul, hu, one_mul] at habs
    rw [← abs_mul, abs_of_nonneg hnn, abs_of_pos (zpow_pos (by norm_num : (0 : ℚ) < 10) e), ← Int.cast_abs] at habs
    rw [habs, Nat.cast_natAbs]
  obtain ⟨q, hdq⟩ := quotient_dvd ha hb hn hmag shift hshift.symm
  have hden : 0 < b.coeff * 10 ^ (-shift).toNat := Nat.mul_pos (Nat.pos_of_ne_zero hb) (by positivity)
  have hquot : a.coeff * 10 ^ shift.toNat / (b.coeff * 10 ^ (-shift).toNat) = q := by
    rw [hdq, Nat.mul_div_cancel_left q hden]
  have hrem : a.coeff * 10 ^ shift.toNat % (b.coeff * 10 ^ (-shift).toNat) = 0 := by
    rw [hdq, Nat.mul_mod_right]
  obtain ⟨hz1, hz2⟩ := stripZeros_spec shift.toNat q
  generalize hstrip : stripZeros shift.toNat q = st at hz1 hz2
  obtain ⟨q', k⟩ := st
  simp only at hz1 hz2
  have hv : toRat ⟨xor a.sign b.sign, q', a.exp - b.exp - shift + k⟩ = a.toRat / b.toRat := by
    rw [hz2, toRat_div_pow hz1, toRat_eq_unit, div_toRat, toRat_quotient hb (by rw [hdq, mul_comm])]
  have hdiv : div c a b = fix c ⟨xor a.sign b.sign, q', a.exp - b.exp - shift + k⟩ := by
    simp only [div, hb, ha, if_false, hshift, hquot, hrem, if_true, hstrip]
  rw [hdiv, ← hv]
  exact fix_of_fits (hv ▸ hfits)

/-! ## Comparisons -/

theorem scaled_lt_iff (a b : Decimal) :
    a.scaled (min a.exp b.exp) < b.scaled (min a.exp b.exp) ↔ a.toRat < b.toRat := by
  rw [← scaled_mul_zpow a (min_le_left a.exp b.exp), ← scaled_mul_zpow b (min_le_right a.exp b.exp),
    mul_lt_mul_iff_left₀ (zpow_pos (by norm_num) _), Int.cast_lt]

theorem lt_iff (a b : Decimal) : lt a b = true ↔ a.toRat < b.toRat := by
  simp only [lt, decide_eq_true_eq, scaled_lt_iff]

theorem le_iff (a b : Decimal) : le a b = true ↔ a.toRat ≤ b.toRat := by
  rw [← not_lt, ← scaled_lt_iff b a, min_comm, not_lt]
  simp only [le, decide_eq_true_eq]

theorem isZero_iff (d : Decimal) : isZero d = true ↔ d.toRat = 0 := by
  rw [toRat_eq_zero_iff, isZero, beq_iff_eq]

/-! ## Quantizing -/

/-- A rational rounded to `places` decimal places, the magnitude half up: what SQL's `ROUND` does. -/
def roundHalfUp (q : ℚ) (places : Nat) : ℚ :=
  unit (decide (q < 0)) * ((⌊|q| * 10 ^ places + 1 / 2⌋₊ : ℚ) * (10 : ℚ) ^ (-(places : Int)))

/-- Rounding a coefficient half up is the floor of one half more. -/
theorem floor_half_eq_roundCoeff (s : Bool) (n k : Nat) :
    ⌊(n : ℚ) / 10 ^ k + 1 / 2⌋₊ = roundCoeff .halfUp s n k := by
  have hT : 0 < 10 ^ k := by positivity
  have hTq : (10 : ℚ) ^ k ≠ 0 := by positivity
  have hfrac : (n : ℚ) / 10 ^ k + 1 / 2 = ((2 * n + 10 ^ k : Nat) : ℚ) / ((2 * 10 ^ k : Nat) : ℚ) := by
    push_cast
    field_simp
  rw [hfrac, Nat.floor_div_eq_div]
  simp only [roundCoeff, decide_eq_true_eq]
  generalize 10 ^ k = T at *
  have hn := Nat.div_add_mod n T
  have hr := Nat.mod_lt n hT
  generalize n / T = q at *
  generalize n % T = r at *
  have hsum : 2 * n + T = 2 * T * q + (2 * r + T) := by rw [← hn]; ring
  rw [hsum, Nat.mul_add_div (by omega)]
  split
  · have h1 : (2 * r + T) / (2 * T) = 1 := Nat.div_eq_of_lt_le (by omega) (by omega)
    omega
  · rw [Nat.div_eq_of_lt (by omega)]
    omega

/-- The coefficient at `places` decimal places is the rounded magnitude. -/
theorem rescale_halfUp (d : Decimal) (places : Nat) :
    rescale .halfUp d (-(places : Int)) = ⟨d.sign, ⌊|d.toRat| * 10 ^ places + 1 / 2⌋₊, -(places : Int)⟩ := by
  by_cases hz : d.coeff = 0
  · have hf : ⌊(1 / 2 : ℚ)⌋₊ = 0 := by norm_num
    simp only [rescale, hz, if_true, (toRat_eq_zero_iff d).mpr hz, abs_zero, zero_mul, zero_add, hf]
  rw [abs_toRat]
  by_cases he : -(places : Int) ≤ d.exp
  · obtain ⟨k, hk⟩ := Int.eq_ofNat_of_zero_le (by omega : 0 ≤ d.exp - -(places : Int))
    have hexp : d.exp = k - places := by omega
    have hval : (d.coeff : ℚ) * (10 : ℚ) ^ d.exp * 10 ^ places = ((d.coeff * 10 ^ k : Nat) : ℚ) := by
      rw [hexp, zpow_sub₀ (by norm_num), zpow_natCast, zpow_natCast]
      push_cast
      field_simp
    have hfl : ⌊((d.coeff * 10 ^ k : Nat) : ℚ) + 1 / 2⌋₊ = d.coeff * 10 ^ k := by
      rw [Nat.floor_eq_iff (by positivity)]
      constructor
      · linarith
      · linarith
    simp only [rescale, hz, if_false, he, if_true, hk, Int.toNat_natCast, hval, hfl]
  · obtain ⟨k, hk⟩ := Int.eq_ofNat_of_zero_le (by omega : 0 ≤ -(places : Int) - d.exp)
    have hexp : d.exp = -(k : Int) - places := by omega
    have hval : (d.coeff : ℚ) * (10 : ℚ) ^ d.exp * 10 ^ places = (d.coeff : ℚ) / 10 ^ k := by
      rw [hexp, zpow_sub₀ (by norm_num), zpow_neg, zpow_natCast, zpow_natCast]
      field_simp
    simp only [rescale, hz, if_false, he, hk, Int.toNat_natCast, hval, floor_half_eq_roundCoeff d.sign]

/-- The sign of a decimal whose coefficient is not zero is the sign of the number. -/
theorem sign_eq_decide {d : Decimal} (hz : d.coeff ≠ 0) : d.sign = decide (d.toRat < 0) := by
  obtain ⟨s, n, e⟩ := d
  have hpos : (0 : ℚ) < (n : ℚ) * (10 : ℚ) ^ e :=
    mul_pos (by exact_mod_cast Nat.pos_of_ne_zero hz) (zpow_pos (by norm_num) _)
  rw [toRat_eq_unit]
  cases s
  · simp only [unit, Bool.false_eq_true, if_false, one_mul]
    rw [eq_comm, decide_eq_false_iff_not]
    linarith
  · simp only [unit, if_true]
    rw [eq_comm, decide_eq_true_eq]
    linarith

/-- Quantizing half up to `places` decimal places gives the rounded number, where its coefficient has at most `prec` digits. -/
theorem quantize_halfUp {c : DecimalContext} {d : Decimal} {places : Nat} (hc : (c.prec : Int) ≤ c.emax)
    (hp : c.etiny ≤ -(places : Int)) (h : ⌊|d.toRat| * 10 ^ places + 1 / 2⌋₊ < 10 ^ c.prec) :
    ∃ r, quantize c .halfUp d (-(places : Int)) = .ok r ∧ r.toRat = roundHalfUp d.toRat places := by
  have hprec := c.prec_pos
  have hmax := c.emax_ge
  have hrange : ¬ (-(places : Int) < c.etiny ∨ c.emax < -(places : Int)) := by omega
  have hetop : -(places : Int) ≤ c.etop := by
    unfold DecimalContext.etop
    omega
  set m := ⌊|d.toRat| * 10 ^ places + 1 / 2⌋₊ with hm
  have hfits : ∀ s, Fits c (toRat ⟨s, m, -(places : Int)⟩) := by
    intro s
    exact ⟨signed ⟨s, m, -(places : Int)⟩, _, rfl, by rw [natAbs_signed]; exact h, hp, hetop⟩
  by_cases hz : d.coeff = 0
  · have hm0 : m = 0 := by
      rw [hm, (toRat_eq_zero_iff d).mpr hz]
      norm_num
    obtain ⟨r, hr, hv⟩ := fix_of_fits (hfits d.sign)
    refine ⟨r, ?_, ?_⟩
    · simp only [quantize, hrange, if_false, hz, if_true]
      rw [← hr, hm0]
    · rw [hv, roundHalfUp, ← hm, hm0, toRat_eq_unit]
      simp
  have hlt : |d.toRat| * 10 ^ places < (10 : ℚ) ^ c.prec := by
    have h1 := Nat.lt_floor_add_one (|d.toRat| * 10 ^ places + 1 / 2)
    have h2 : ((m : ℚ)) + 1 ≤ (10 : ℚ) ^ c.prec := by exact_mod_cast h
    rw [← hm] at h1
    linarith
  -- the leading digit stands below the precision at `places`
  have hadj : d.adjusted + places < c.prec := by
    have hlow : (10 : ℚ) ^ d.adjusted ≤ |d.toRat| := by
      have hcast : d.adjusted = d.exp + ((numDigits d.coeff - 1 : Nat) : Int) := by
        have := numDigits_pos d.coeff
        unfold adjusted
        omega
      rw [abs_toRat, hcast, zpow_add₀ (by norm_num), mul_comm, zpow_natCast]
      refine mul_le_mul_of_nonneg_right ?_ (zpow_pos (by norm_num) _).le
      exact_mod_cast pow_numDigits_le hz
    have hchain : (10 : ℚ) ^ (d.adjusted + places) < (10 : ℚ) ^ (c.prec : Int) := by
      rw [zpow_add₀ (by norm_num), zpow_natCast, zpow_natCast]
      exact lt_of_le_of_lt (mul_le_mul_of_nonneg_right hlow (by positivity)) hlt
    exact (zpow_lt_zpow_iff_right₀ (by norm_num)).mp hchain
  have hdig : numDigits m ≤ c.prec := numDigits_le_of_lt hprec h
  have hres := rescale_halfUp d places
  rw [← hm] at hres
  obtain ⟨r, hr, hv⟩ := fix_of_fits (hfits d.sign)
  refine ⟨r, ?_, ?_⟩
  · have h1 : ¬ (c.emax < d.adjusted ∨ (c.prec : Int) < d.adjusted - -(places : Int) + 1) := by omega
    have h2 : ¬ (c.emax < adjusted ⟨d.sign, m, -(places : Int)⟩ ∨ c.prec < numDigits m) := by
      simp only [adjusted]
      omega
    simp only [quantize, hrange, if_false, hz, h1, hres, h2]
    exact hr
  · rw [hv, roundHalfUp, ← hm, toRat_eq_unit, sign_eq_decide hz]

end Decimal

end Py
