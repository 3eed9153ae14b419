import Nl2Sql.Lib.Numeral

/-!
# Reading the text of a decimal

`Decimal(str(d))` is `d` itself, with its sign, its coefficient and its exponent: the text keeps the zeros at the end of the
coefficient, and writes an exponent where the point does not show it.
-/

namespace Py

namespace Decimal

/-- The exponent of a text in scientific notation. -/
def exponentText (n : Int) : List Char :=
  if n = 0 then [] else 'E' :: (if n < 0 then '-' else '+') :: (Nat.repr n.natAbs).toList

/-- The characters of the text of a decimal. -/
def IsNumberChar (c : Char) : Prop := c.isDigit = true ∨ c = '.' ∨ c = '-' ∨ c = '+' ∨ c = 'E'

theorem isSpace_of_isNumberChar {c : Char} (h : IsNumberChar c) : isSpace c = false := by
  rcases h with h | rfl | rfl | rfl | rfl
  · exact isSpace_of_isDecimal (isDecimal_ascii h)
  · decide
  · decide
  · decide
  · decide

theorem ne_underscore_of_isNumberChar {c : Char} (h : IsNumberChar c) : c ≠ '_' := by
  rintro rfl
  rcases h with h | h | h | h | h <;> nomatch h

theorem isDigit_repr (n : Nat) : ∀ c ∈ (Nat.repr n).toList, c.isDigit = true := by
  intro c hc
  rw [Nat.toList_repr] at hc
  exact Nat.isDigit_of_mem_toDigits (by decide) (by decide) hc

theorem repr_ne_nil (n : Nat) : (Nat.repr n).toList ≠ [] := by
  rw [Nat.toList_repr]
  exact Nat.toDigits_ne_nil

theorem ofDigitChars_repr (n : Nat) : Nat.ofDigitChars 10 (Nat.repr n).toList 0 = n := by
  rw [Nat.toList_repr]
  exact Nat.ofDigitChars_ten_toDigits

theorem digitValues_ascii {cs : List Char} (h : ∀ c ∈ cs, c.isDigit = true) : digitValues cs = cs.map fun c => c.toNat - 48 := by
  unfold digitValues
  rw [List.filterMap_congr fun c hc => digitValue_ascii (h c hc), List.filterMap_eq_map']

/-- The digits of a text of ASCII digits, up to what is no digit. -/
theorem takeDigits_ascii {W R : List Char} (hW : ∀ c ∈ W, c.isDigit = true) (hR : NoDigitHead R) :
    takeDigits (W ++ R) = (digitValues W, R) := takeDigits_append (fun c hc => isDecimal_ascii (hW c hc)) hR

theorem exponentPart_exponentText (n : Int) : exponentPart (exponentText n) = some n := by
  unfold exponentText
  by_cases hn : n = 0
  · rw [if_pos hn, hn]
    rfl
  · rw [if_neg hn]
    have hread : takeDigits (Nat.repr n.natAbs).toList = (digitValues (Nat.repr n.natAbs).toList, []) := by
      have h := takeDigits_ascii (R := []) (isDigit_repr n.natAbs) rfl
      rwa [List.append_nil] at h
    have hvalue : digitsToNat (digitValues (Nat.repr n.natAbs).toList) = n.natAbs := by
      rw [digitsToNat_ascii (isDigit_repr n.natAbs), ofDigitChars_repr]
    have hne : digitValues (Nat.repr n.natAbs).toList ≠ [] := by
      rw [digitValues_ascii (isDigit_repr n.natAbs), ne_eq, List.map_eq_nil_iff]
      exact repr_ne_nil n.natAbs
    obtain ⟨v, vs, hvs⟩ := List.exists_cons_of_ne_nil hne
    rw [hvs] at hread hvalue
    by_cases hneg : n < 0
    · have hsign : takeSign ((if n < 0 then '-' else '+') :: (Nat.repr n.natAbs).toList) = (true, (Nat.repr n.natAbs).toList) := by
        rw [if_pos hneg]
        rfl
      simp only [exponentPart, or_true, if_true, hsign, hread, hvalue]
      congr 1
      omega
    · have hsign : takeSign ((if n < 0 then '-' else '+') :: (Nat.repr n.natAbs).toList) = (false, (Nat.repr n.natAbs).toList) := by
        rw [if_neg hneg]
        rfl
      simp only [exponentPart, or_true, if_true, hsign, hread, hvalue, Bool.false_eq_true, if_false]
      congr 1
      omega

theorem noDigitHead_exponentText (n : Int) : NoDigitHead (exponentText n) := by
  unfold exponentText NoDigitHead
  split
  · rfl
  · change isDecimal 'E' = false
    decide +kernel

theorem isNumberChar_exponentText (n : Int) : ∀ c ∈ exponentText n, IsNumberChar c := by
  intro c hc
  unfold exponentText at hc
  split at hc
  · nomatch hc
  · rw [List.mem_cons, List.mem_cons] at hc
    rcases hc with rfl | hc | hc
    · exact .inr (.inr (.inr (.inr rfl)))
    · split at hc
      · exact .inr (.inr (.inl hc))
      · exact .inr (.inr (.inr (.inl hc)))
    · exact .inl (isDigit_repr n.natAbs c hc)

theorem isNumberChar_signText (s : Bool) : ∀ c ∈ (if s then ['-'] else []), IsNumberChar c := by
  intro c hc
  cases s with
  | true =>
    rw [if_pos rfl, List.mem_singleton] at hc
    exact .inr (.inr (.inl hc))
  | false => nomatch hc

theorem isNumberChar_point {F : List Char} (hF : ∀ c ∈ F, c.isDigit = true) : ∀ c ∈ point F, IsNumberChar c := by
  intro c hc
  unfold point at hc
  split at hc
  · nomatch hc
  · rw [List.mem_cons] at hc
    rcases hc with rfl | hc
    · exact .inr (.inl rfl)
    · exact .inl (hF c hc)

/-- A sign in front of digits is taken. -/
theorem takeSign_signText (s : Bool) {W R : List Char} (hne : W ≠ []) (hW : ∀ c ∈ W, c.isDigit = true) :
    takeSign ((if s then ['-'] else []) ++ (W ++ R)) = (s, W ++ R) := by
  cases s with
  | true => rfl
  | false =>
    obtain ⟨c, W, rfl⟩ := List.exists_cons_of_ne_nil hne
    have hc := hW c List.mem_cons_self
    have hplus : c ≠ '+' := by
      rintro rfl
      nomatch hc
    have hminus : c ≠ '-' := by
      rintro rfl
      nomatch hc
    simp only [Bool.false_eq_true, if_false, List.nil_append, List.cons_append]
    unfold takeSign
    split
    · rename_i heq
      exact absurd (List.cons.inj heq).1 hplus
    · rename_i heq
      exact absurd (List.cons.inj heq).1 hminus
    · rfl

/-- `Decimal(text)` of a sign, ASCII digits, a fraction and an exponent. -/
theorem ofString?_scientific (s : Bool) {W F : List Char} (hne : W ≠ []) (hW : ∀ c ∈ W, c.isDigit = true)
    (hF : ∀ c ∈ F, c.isDigit = true) (n : Int) :
    ofString? (String.ofList ((if s then ['-'] else []) ++ (W ++ (point F ++ exponentText n)))) =
      if constructible ⟨s, Nat.ofDigitChars 10 (W ++ F) 0, n - F.length⟩ then
        some ⟨s, Nat.ofDigitChars 10 (W ++ F) 0, n - F.length⟩
      else none := by
  have hchars : ∀ c ∈ (if s then ['-'] else []) ++ (W ++ (point F ++ exponentText n)), IsNumberChar c := by
    intro c hc
    simp only [List.mem_append] at hc
    rcases hc with hc | hc | hc | hc
    · exact isNumberChar_signText s c hc
    · exact .inl (hW c hc)
    · exact isNumberChar_point hF c hc
    · exact isNumberChar_exponentText n c hc
  have hfilter : ((if s then ['-'] else []) ++ (W ++ (point F ++ exponentText n))).filter (· ≠ '_') =
      (if s then ['-'] else []) ++ (W ++ (point F ++ exponentText n)) :=
    List.filter_eq_self.mpr fun c hc => decide_eq_true (ne_underscore_of_isNumberChar (hchars c hc))
  have hwhole : takeDigits (W ++ (point F ++ exponentText n)) = (digitValues W, point F ++ exponentText n) :=
    takeDigits_ascii hW (noDigitHead_point F (noDigitHead_exponentText n))
  have hnil : digitValues W ≠ [] := by
    rw [digitValues_ascii hW, ne_eq, List.map_eq_nil_iff]
    exact hne
  have hlength : (digitValues F).length = F.length := by rw [digitValues_ascii hF, List.length_map]
  have hvalue : digitsToNat (digitValues W ++ digitValues F) = Nat.ofDigitChars 10 (W ++ F) 0 := by
    have happend : digitValues (W ++ F) = digitValues W ++ digitValues F := List.filterMap_append
    rw [← happend, digitsToNat_ascii fun c hc => ?_]
    rcases List.mem_append.mp hc with hc | hc
    · exact hW c hc
    · exact hF c hc
  unfold ofString?
  rw [strip_of_no_space fun c hc => isSpace_of_isNumberChar (hchars c hc), String.toList_ofList, hfilter, takeSign_signText s hne hW]
  simp only [hwhole]
  by_cases hnilF : F = []
  · subst hnilF
    have hrest : point [] ++ exponentText n = exponentText n := rfl
    have hpoint : ∀ tail, exponentText n ≠ '.' :: tail := by
      intro tail htail
      unfold exponentText at htail
      split at htail <;> nomatch htail
    rw [hrest]
    split
    · rename_i tail htail
      exact absurd htail (hpoint tail)
    · simp only [hnil, false_and, if_false, exponentPart_exponentText, List.length_nil, ← hvalue]
      rfl
  · have hfrac : takeDigits (F ++ exponentText n) = (digitValues F, exponentText n) :=
      takeDigits_ascii hF (noDigitHead_exponentText n)
    simp only [point, hnilF, if_false, List.cons_append, hfrac, hnil, false_and, exponentPart_exponentText, hlength, ← hvalue]

/-- A text whose digits are those of the coefficient, with zeros in front of them, and whose fraction and exponent give the exponent, is
read as the decimal. -/
theorem ofString?_of_digits {d : Decimal} {W F : List Char} {n : Int} (hne : W ≠ []) (hW : ∀ c ∈ W, c.isDigit = true)
    (hF : ∀ c ∈ F, c.isDigit = true) (hcoeff : Nat.ofDigitChars 10 (W ++ F) 0 = d.coeff) (hexp : n - F.length = d.exp)
    (hd : d.constructible = true) :
    ofString? (String.ofList ((if d.sign then ['-'] else []) ++ (W ++ (point F ++ exponentText n)))) = some d := by
  rw [ofString?_scientific d.sign hne hW hF n, hcoeff, hexp]
  exact if_pos hd

/-- `Decimal(str(d))` is `d`. -/
theorem ofString?_toStr {d : Decimal} (hd : d.constructible = true) : ofString? d.toStr = some d := by
  obtain ⟨D, hD⟩ : ∃ D, D = (Nat.repr d.coeff).toList := ⟨_, rfl⟩
  have hdigits : ∀ c ∈ D, c.isDigit = true := hD ▸ isDigit_repr d.coeff
  have hne : D ≠ [] := hD ▸ repr_ne_nil d.coeff
  have hcoeff : Nat.ofDigitChars 10 D 0 = d.coeff := hD ▸ ofDigitChars_repr d.coeff
  have hpos : 0 < D.length := List.length_pos_iff.mpr hne
  -- the parts of the text that are written are those that are read
  have hread : ∀ (W F : List Char) (n : Int), W ≠ [] → (∀ c ∈ W, c.isDigit = true) → (∀ c ∈ F, c.isDigit = true) →
      Nat.ofDigitChars 10 (W ++ F) 0 = d.coeff → n - F.length = d.exp → d.toStr = String.ofList ((if d.sign then ['-'] else []) ++
        (W ++ (point F ++ exponentText n))) → ofString? d.toStr = some d := by
    intro W F n hW hWd hFd hvalue hexp htext
    rw [htext]
    exact ofString?_of_digits hW hWd hFd hvalue hexp hd
  have htext : ∀ left dot : Int, left = d.exp + D.length → dot = (if d.exp ≤ 0 ∧ -6 < left then left else 1) →
      d.toStr = String.ofList ((if d.sign then ['-'] else []) ++
        ((if dot ≤ 0 then ['0', '.'] ++ List.replicate (-dot).toNat '0' ++ D
          else if (D.length : Int) ≤ dot then D ++ List.replicate (dot - D.length).toNat '0'
          else D.take dot.toNat ++ ['.'] ++ D.drop dot.toNat) ++ exponentText (left - dot))) := by
    intro left dot hleft hdot
    subst hleft hdot hD
    unfold toStr exponentText
    simp only [sub_eq_zero, List.append_assoc]
  obtain ⟨left, hleft⟩ : ∃ left, left = d.exp + D.length := ⟨_, rfl⟩
  by_cases hplain : d.exp ≤ 0 ∧ -6 < left
  · have h := htext left left hleft (if_pos hplain).symm
    rw [sub_self] at h
    by_cases hzero : left ≤ 0
    · -- the point stands in front of the digits
      have hF : List.replicate (-left).toNat '0' ++ D ≠ [] := by simp [hne]
      refine hread ['0'] (List.replicate (-left).toNat '0' ++ D) 0 (by rintro ⟨⟩) (List.forall_mem_singleton.mpr rfl) (fun c hc => ?_) ?_ ?_ ?_
      · rcases List.mem_append.mp hc with hc | hc
        · rw [List.eq_of_mem_replicate hc]
          rfl
        · exact hdigits c hc
      · rw [← List.append_assoc, Nat.ofDigitChars_append, Nat.ofDigitChars_append, Nat.ofDigitChars_replicate_zero]
        exact hcoeff
      · rw [List.length_append, List.length_replicate]
        omega
      · rw [h, if_pos hzero, point, if_neg hF]
        simp only [List.cons_append, List.nil_append]
    · by_cases hlong : (D.length : Int) ≤ left
      · have hnone : (left - D.length).toNat = 0 := by omega
        refine hread D [] 0 hne hdigits (by rintro _ ⟨⟩) (by rw [List.append_nil]; exact hcoeff) ?_ ?_
        · rw [List.length_nil]
          omega
        · rw [h, if_neg hzero, if_pos hlong, hnone, List.replicate_zero, List.append_nil]
          rfl
      · have hF : D.drop left.toNat ≠ [] := by
          rw [ne_eq, List.drop_eq_nil_iff]
          omega
        have hW : D.take left.toNat ≠ [] := by
          rw [ne_eq, List.take_eq_nil_iff, not_or]
          exact ⟨by omega, hne⟩
        refine hread (D.take left.toNat) (D.drop left.toNat) 0 hW (fun c hc => hdigits c (List.mem_of_mem_take hc))
          (fun c hc => hdigits c (List.mem_of_mem_drop hc)) (by rw [List.take_append_drop]; exact hcoeff) ?_ ?_
        · rw [List.length_drop]
          omega
        · rw [h, if_neg hzero, if_neg hlong, point, if_neg hF]
          simp only [List.cons_append, List.nil_append, List.append_assoc]
  · -- one digit stands in front of the point, and the exponent says where it was
    have h := htext left 1 hleft (if_neg hplain).symm
    have hpast : ¬ (1 : Int) ≤ 0 := by decide
    rw [if_neg hpast] at h
    by_cases hone : (D.length : Int) ≤ 1
    · have hnone : ((1 : Int) - D.length).toNat = 0 := by omega
      refine hread D [] (left - 1) hne hdigits (by rintro _ ⟨⟩) (by rw [List.append_nil]; exact hcoeff) ?_ ?_
      · rw [List.length_nil]
        omega
      · rw [h, if_pos hone, hnone, List.replicate_zero, List.append_nil]
        rfl
    · have hF : D.drop 1 ≠ [] := by
        rw [ne_eq, List.drop_eq_nil_iff]
        omega
      have hW : D.take 1 ≠ [] := by
        rw [ne_eq, List.take_eq_nil_iff, not_or]
        exact ⟨by decide, hne⟩
      refine hread (D.take 1) (D.drop 1) (left - 1) hW (fun c hc => hdigits c (List.mem_of_mem_take hc))
        (fun c hc => hdigits c (List.mem_of_mem_drop hc)) (by rw [List.take_append_drop]; exact hcoeff) ?_ ?_
      · rw [List.length_drop]
        omega
      · rw [h, if_neg hone, point, if_neg hF]
        simp only [Int.toNat_one, List.cons_append, List.nil_append, List.append_assoc]

example : ofString? (toStr ⟨true, 1200, -9⟩) = some ⟨true, 1200, -9⟩ := by decide +kernel

end Decimal

end Py
