import Mathlib.Data.Nat.Factorization.Basic
import Nl2Sql.Lib.Numeral

/-!
# The plain text of a decimal

`format(d, "f")` keeps the trailing zeros that the exponent carries. Without the zeros at the end of its fraction the text is a normal
form: two decimals other than zero have the same plain text exactly when they are the same number.
-/

namespace Py

/-- `s.rstrip(c)`. -/
def rstrip (c : Char) (s : String) : String := String.ofList (s.toList.rdropWhile (· = c))

namespace Decimal

/-- `format(d, "f")` without the zeros at the end of the fraction, and without the point of a fraction that has no other digit. -/
def plainText (d : Decimal) : String :=
  if '.' ∈ d.formatF.toList then rstrip '.' (rstrip '0' d.formatF) else d.formatF

/-- The digits of a decimal other than zero around the point at `left`. -/
def body (D : List Char) (left : Int) : List Char :=
  if left ≤ 0 then ['0', '.'] ++ List.replicate (-left).toNat '0' ++ D
  else if (D.length : Int) ≤ left then D ++ List.replicate (left - D.length).toNat '0'
  else D.take left.toNat ++ ['.'] ++ D.drop left.toNat

/-- The sign of a decimal in its text. -/
def signText (s : Bool) : List Char := if s then ['-'] else []

theorem toList_formatF {d : Decimal} (h : d.coeff ≠ 0) :
    d.formatF.toList = signText d.sign ++ body (Nat.toDigits 10 d.coeff) (d.exp + (Nat.toDigits 10 d.coeff).length) := by
  simp only [formatF, String.toList_ofList, Nat.toList_repr, if_neg h]
  rfl

/-- The plain form of a text. -/
def plain (cs : List Char) : List Char := if '.' ∈ cs then (cs.rdropWhile (· = '0')).rdropWhile (· = '.') else cs

theorem toList_plainText (d : Decimal) : d.plainText.toList = plain d.formatF.toList := by
  unfold plainText plain rstrip
  split <;> simp

/-- A zero at the end of a fraction does not change the plain form. -/
theorem plain_concat_zero {cs : List Char} (h : '.' ∈ cs) : plain (cs ++ ['0']) = plain cs := by
  have h' : '.' ∈ cs ++ ['0'] := List.mem_append_left _ h
  simp only [plain, h, h', if_true]
  rw [List.rdropWhile_concat_pos _ _ _ (by decide)]

theorem toDigits_isDigit (n : Nat) : ∀ c ∈ Nat.toDigits 10 n, c.isDigit = true :=
  fun _ hc => Nat.isDigit_of_mem_toDigits (by decide) (by decide) hc

/-- No digit is a point. -/
theorem point_not_mem {cs : List Char} (h : ∀ c ∈ cs, c.isDigit = true) : '.' ∉ cs := fun hmem => nomatch h '.' hmem

theorem point_not_mem_signText (s : Bool) : '.' ∉ signText s := by cases s <;> decide

/-- A coefficient with one zero more and an exponent less by one has the same plain text. -/
theorem plain_body_concat_zero {s : Bool} {D : List Char} (hD : ∀ c ∈ D, c.isDigit = true) (left : Int) :
    plain (signText s ++ body (D ++ ['0']) left) = plain (signText s ++ body D left) := by
  have hlen : (D ++ ['0']).length = D.length + 1 := by simp
  unfold body
  by_cases hleft : left ≤ 0
  · simp only [hleft, if_true]
    rw [← List.append_assoc _ D, ← List.append_assoc (signText s)]
    exact plain_concat_zero (by simp)
  · simp only [hleft, if_false, hlen]
    by_cases hlong : (D.length : Int) + 1 ≤ left
    · have hlong' : (D.length : Int) ≤ left := by omega
      have hone : (left - D.length).toNat = (left - (D.length + 1)).toNat + 1 := by omega
      simp only [Nat.cast_add, Nat.cast_one, hlong, hlong', if_true, hone, List.replicate_succ, List.append_assoc, List.cons_append,
        List.nil_append]
    · by_cases hlong' : (D.length : Int) ≤ left
      · -- the point stands right before the new zero, and both go
        have hnat : left.toNat = D.length := by omega
        have hzero : (left - (D.length : Int)).toNat = 0 := by omega
        have hpoint : '.' ∉ signText s ++ D := by
          rw [List.mem_append, not_or]
          exact ⟨point_not_mem_signText s, point_not_mem hD⟩
        simp only [Nat.cast_add, Nat.cast_one, hlong, hlong', if_true, if_false, hnat, hzero, List.replicate_zero, List.append_nil,
          List.take_left', List.drop_left']
        rw [← List.append_assoc, plain_concat_zero (by simp), ← List.append_assoc, plain, if_pos (by simp), plain, if_neg hpoint,
          List.rdropWhile_concat_neg _ _ _ (by decide), List.rdropWhile_concat_pos _ _ _ (by decide), List.rdropWhile_eq_self_iff]
        intro hl hlast
        exact hpoint (of_decide_eq_true hlast ▸ List.getLast_mem hl)
      · have hle : left.toNat ≤ D.length := by omega
        simp only [Nat.cast_add, Nat.cast_one, hlong, hlong', if_false, List.take_append_of_le_length hle, List.drop_append_of_le_length hle]
        rw [← List.append_assoc _ (D.drop _), ← List.append_assoc (signText s)]
        exact plain_concat_zero (by simp)

theorem toDigits_mul_ten {n : Nat} (h : n ≠ 0) : Nat.toDigits 10 (10 * n) = Nat.toDigits 10 n ++ ['0'] := by
  have := Nat.toDigits_append_toDigits (b := 10) (d := 0) (by decide) (Nat.pos_of_ne_zero h) (by decide)
  rw [Nat.add_zero] at this
  exact this.symm

theorem plainText_mul_ten {s : Bool} {n : Nat} (h : n ≠ 0) (e : Int) : plainText ⟨s, 10 * n, e⟩ = plainText ⟨s, n, e + 1⟩ := by
  refine String.toList_injective ?_
  have h10 : 10 * n ≠ 0 := by omega
  rw [toList_plainText, toList_plainText, toList_formatF (d := ⟨s, 10 * n, e⟩) h10, toList_formatF (d := ⟨s, n, e + 1⟩) h]
  simp only [toDigits_mul_ten h]
  rw [plain_body_concat_zero (toDigits_isDigit n), List.length_append]
  congr 3
  simp only [List.length_singleton]
  omega

/-- Zeros at the end of a coefficient do not change the plain text. -/
theorem plainText_mul_pow {s : Bool} {n : Nat} (h : n ≠ 0) (k : Nat) (e : Int) :
    plainText ⟨s, n * 10 ^ k, e⟩ = plainText ⟨s, n, e + k⟩ := by
  induction k generalizing e with
  | zero => simp
  | succ k ih =>
    have hk : n * 10 ^ k ≠ 0 := Nat.mul_ne_zero h (by positivity)
    rw [Nat.pow_succ, ← Nat.mul_assoc, Nat.mul_comm _ 10, plainText_mul_ten hk, ih]
    congr 2
    push_cast
    omega

/-- Decimals that are the same number, other than zero, have the same plain text. -/
theorem plainText_eq_of_toRat {d d' : Decimal} (h : d.coeff ≠ 0) (heq : d.toRat = d'.toRat) : d.plainText = d'.plainText := by
  have h' : d'.coeff ≠ 0 := by
    rw [ne_eq, ← toRat_eq_zero_iff, ← heq, toRat_eq_zero_iff]
    exact h
  have hsign : d.sign = d'.sign := by rw [sign_eq_decide h, sign_eq_decide h', heq]
  have habs : (d.coeff : ℚ) * (10 : ℚ) ^ d.exp = (d'.coeff : ℚ) * (10 : ℚ) ^ d'.exp := by rw [← abs_toRat, ← abs_toRat, heq]
  -- the one with the smaller exponent has the zeros
  have hle : ∀ {a b : Decimal}, b.coeff ≠ 0 → a.sign = b.sign → a.exp ≤ b.exp →
      (a.coeff : ℚ) * (10 : ℚ) ^ a.exp = (b.coeff : ℚ) * (10 : ℚ) ^ b.exp → a.plainText = b.plainText := by
    intro a b hb hs hab hval
    obtain ⟨s, n, e⟩ := a
    obtain ⟨s', n', e'⟩ := b
    obtain rfl : s = s' := hs
    have hcoeff := coeff_eq_of_zpow hab hval
    have hexp : e' = e + (e' - e).toNat := by
      have : e ≤ e' := hab
      omega
    rw [show n = n' * 10 ^ (e' - e).toNat from hcoeff, plainText_mul_pow hb, ← hexp]
  rcases le_total d.exp d'.exp with hexp | hexp
  · exact hle h' hsign hexp habs
  · exact (hle h hsign.symm hexp habs.symm).symm

/-- A text that ends with a digit other than zero is its own plain form. -/
theorem plain_concat {cs : List Char} {c : Char} (hz : c ≠ '0') (hp : c ≠ '.') : plain (cs ++ [c]) = cs ++ [c] := by
  unfold plain
  split
  · rw [List.rdropWhile_concat_neg _ _ _ (by simpa using hz), List.rdropWhile_concat_neg _ _ _ (by simpa using hp)]
  · rfl

/-- The last digit of a number that ten does not divide. -/
theorem toDigits_concat {n : Nat} (h : ¬ 10 ∣ n) : ∃ D c, Nat.toDigits 10 n = D ++ [c] ∧ c ≠ '0' ∧ c ≠ '.' := by
  have hmod : n % 10 ≠ 0 := fun h0 => h (Nat.dvd_of_mod_eq_zero h0)
  have hdigit : ∀ k < 10, k ≠ 0 → Nat.digitChar k ≠ '0' ∧ Nat.digitChar k ≠ '.' := by decide
  rw [Nat.toDigits_eq_if (by decide)]
  split
  · rename_i hlt
    rw [Nat.mod_eq_of_lt hlt] at hmod
    exact ⟨[], Nat.digitChar n, rfl, hdigit n hlt hmod⟩
  · exact ⟨_, _, rfl, hdigit (n % 10) (Nat.mod_lt n (by decide)) hmod⟩

/-- A decimal with no zero at the end of its coefficient has no zeros to strip. -/
theorem plainText_of_not_dvd {d : Decimal} (h : ¬ 10 ∣ d.coeff) : d.plainText = d.formatF := by
  have hne : d.coeff ≠ 0 := fun h0 => h (h0 ▸ dvd_zero 10)
  obtain ⟨D, c, hD, hz, hp⟩ := toDigits_concat h
  have hdigits := toDigits_isDigit d.coeff
  refine String.toList_injective ?_
  rw [toList_plainText, toList_formatF hne, hD]
  obtain ⟨left, hleft⟩ : ∃ left, left = d.exp + ((D ++ [c]).length : Int) := ⟨_, rfl⟩
  rw [← hleft]
  rw [hD] at hdigits
  unfold body
  split
  · rw [← List.append_assoc _ D, ← List.append_assoc (signText _)]
    exact plain_concat hz hp
  · split
    · have hpoint : '.' ∉ signText d.sign ++ (D ++ [c] ++ List.replicate (left - (D ++ [c]).length).toNat '0') := by
        rw [List.mem_append, List.mem_append, not_or, not_or]
        refine ⟨point_not_mem_signText d.sign, point_not_mem hdigits, fun hmem => ?_⟩
        nomatch List.eq_of_mem_replicate hmem
      rw [plain, if_neg hpoint]
    · rename_i hlong
      have hle : left.toNat ≤ D.length := by
        rw [List.length_append, List.length_singleton] at hlong
        omega
      rw [List.drop_append_of_le_length hle, ← List.append_assoc _ (D.drop _), ← List.append_assoc (signText _)]
      exact plain_concat hz hp

/-- A decimal other than zero with no zero at the end of its coefficient, for the same number. -/
theorem exists_reduced {d : Decimal} (h : d.coeff ≠ 0) :
    ∃ r : Decimal, r.toRat = d.toRat ∧ r.coeff ≠ 0 ∧ d.plainText = r.formatF := by
  obtain ⟨k, n, hn, hcoeff⟩ := Nat.exists_eq_pow_mul_and_not_dvd h 10 (by decide)
  have hn0 : n ≠ 0 := fun h0 => hn (h0 ▸ dvd_zero 10)
  have hrat : toRat ⟨d.sign, n, d.exp + k⟩ = d.toRat := by
    rw [toRat_eq_unit, show d = ⟨d.sign, d.coeff, d.exp⟩ from rfl, toRat_eq_unit, hcoeff, zpow_add₀ (by norm_num), zpow_natCast]
    push_cast
    ring
  refine ⟨⟨d.sign, n, d.exp + k⟩, hrat, hn0, ?_⟩
  rw [plainText_eq_of_toRat h hrat.symm]
  exact plainText_of_not_dvd hn

/-- The sign is the first character of the text. -/
theorem head?_formatF {d : Decimal} (h : d.coeff ≠ 0) : (d.formatF.toList.head? = some '-') ↔ d.sign = true := by
  rw [toList_formatF h]
  cases d.sign with
  | true => simp [signText]
  | false =>
    refine ⟨fun hhead => ?_, nofun⟩
    have hdigit : ∀ c ∈ (body (Nat.toDigits 10 d.coeff) (d.exp + (Nat.toDigits 10 d.coeff).length)).head?, c.isDigit = true := by
      obtain ⟨c, D, hD⟩ := List.exists_cons_of_ne_nil (Nat.toDigits_ne_nil (n := d.coeff) (b := 10))
      have hc : c.isDigit = true := toDigits_isDigit d.coeff c (hD ▸ List.mem_cons_self)
      rw [hD]
      intro x hx
      unfold body at hx
      split at hx
      · obtain rfl : '0' = x := by simpa using hx
        rfl
      · rename_i hleft
        split at hx
        · obtain rfl : c = x := by simpa using hx
          exact hc
        · obtain ⟨k, hk⟩ : ∃ k, (d.exp + ((c :: D).length : Int)).toNat = k + 1 := ⟨(d.exp + ((c :: D).length : Int)).toNat - 1, by omega⟩
          rw [hk, List.take_succ_cons] at hx
          obtain rfl : c = x := by simpa using hx
          exact hc
    nomatch hdigit '-' hhead

/-- The plain text of a decimal other than zero tells the number. -/
theorem plainText_inj {d d' : Decimal} (h : d.coeff ≠ 0) (h' : d'.coeff ≠ 0) : d.plainText = d'.plainText ↔ d.toRat = d'.toRat := by
  refine ⟨fun htext => ?_, plainText_eq_of_toRat h⟩
  obtain ⟨r, hr, hr0, hplain⟩ := exists_reduced h
  obtain ⟨r', hr', hr0', hplain'⟩ := exists_reduced h'
  rw [hplain, hplain'] at htext
  have habs : |r.toRat| = |r'.toRat| := by rw [← spelled_formatF, ← spelled_formatF, htext]
  have hsign : r.sign = r'.sign := by
    have := (head?_formatF hr0).symm.trans ((by rw [htext]) : _ ↔ _) |>.trans (head?_formatF hr0')
    exact Bool.eq_iff_iff.mpr this
  rw [abs_toRat, abs_toRat] at habs
  rw [← hr, ← hr', show r = ⟨r.sign, r.coeff, r.exp⟩ from rfl, show r' = ⟨r'.sign, r'.coeff, r'.exp⟩ from rfl, toRat_eq_unit,
    toRat_eq_unit, habs, hsign]

/-- The plain text of a decimal other than zero is not that of zero. -/
theorem plainText_ne_zero {d : Decimal} (h : d.coeff ≠ 0) : d.plainText ≠ "0" := by
  intro htext
  obtain ⟨r, hr, hr0, hplain⟩ := exists_reduced h
  rw [htext] at hplain
  have habs := spelled_formatF r
  rw [← hplain] at habs
  have hzero : spelled "0".toList = 0 := by decide +kernel
  rw [hzero] at habs
  exact hr0 ((toRat_eq_zero_iff r).mp (abs_eq_zero.mp habs.symm))

end Decimal

end Py
