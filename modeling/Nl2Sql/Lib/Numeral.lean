import Nl2Sql.Lib.DecimalExact

/-!
# The numerals of a text

A numeral is a run of decimal digits, with or without thousands separators, and a fraction. The numerals of a text are read from left
to right, each as far as it goes and wherever it stands: letters next to a numeral do not end or hide it. Each is read with the
characters on its two sides, and spells a number.
-/

namespace Py

/-- A decimal digit, of any script. -/
def isDecimal (c : Char) : Bool := (Decimal.digitValue c).isSome

/-- The values of digits. -/
def digitValues (cs : List Char) : List Nat := cs.filterMap Decimal.digitValue

/-- A text that does not begin with a digit. -/
def NoDigitHead (cs : List Char) : Prop := cs.head?.any isDecimal = false

/-- The groups of three digits after commas, without the commas, and what follows them. A group of three is not followed by a digit. -/
def takeGroups : List Char → List Char × List Char
  | ',' :: a :: b :: c :: rest =>
    if isDecimal a && isDecimal b && isDecimal c && !rest.head?.any isDecimal then
      let (ds, tail) := takeGroups rest
      (a :: b :: c :: ds, tail)
    else
      ([], ',' :: a :: b :: c :: rest)
  | cs => ([], cs)

/-- The digits of a fraction, without the point, and what follows them. -/
def takeFraction : List Char → List Char × List Char
  | '.' :: rest =>
    if rest.head?.any isDecimal then (rest.takeWhile isDecimal, rest.dropWhile isDecimal) else ([], '.' :: rest)
  | cs => ([], cs)

/-- A numeral of a text: the digits before the point, whether they are in groups, the digits after it, and the characters next to it. -/
structure Numeral where
  before : Option Char
  whole : List Char
  grouped : Bool
  frac : List Char
  next : Option Char
  deriving DecidableEq, Repr

namespace Numeral

/-- The number a numeral spells. -/
def value (m : Numeral) : ℚ := (Decimal.digitsToNat (digitValues (m.whole ++ m.frac)) : ℚ) / 10 ^ m.frac.length

/-- The characters of a numeral that has no separators. -/
def chars (m : Numeral) : List Char := m.whole ++ if m.frac = [] then [] else '.' :: m.frac

/-- The numeral at the front of a text that begins with a digit, and what follows it. -/
def read (before : Option Char) (cs : List Char) : Numeral × List Char :=
  let whole := cs.takeWhile isDecimal
  let (groups, rest) := if whole.length ≤ 3 then takeGroups (cs.dropWhile isDecimal) else ([], cs.dropWhile isDecimal)
  let (frac, rest) := takeFraction rest
  (⟨before, whole ++ groups, !groups.isEmpty, frac, rest.head?⟩, rest)

/-- The numerals of a text after a character. A numeral has a digit, so as many rounds as characters are enough. -/
def scan : Nat → Option Char → List Char → List Numeral
  | _, _, [] => []
  | 0, _, _ => []
  | rounds + 1, before, c :: cs =>
    if isDecimal c then
      let (m, rest) := read before (c :: cs)
      m :: scan rounds (m.whole ++ m.frac).getLast? rest
    else
      scan rounds (some c) cs

end Numeral

/-- The numerals of a text. -/
def numerals (text : String) : List Numeral := Numeral.scan text.toList.length none text.toList

example : (numerals "up 1,234.5 from 500k on 2024-01-02").map (fun m => (m.value, m.grouped, m.next)) =
    [(1234.5, true, some ' '), (500, false, some 'k'), (2024, false, some '-'), (1, false, some '-'), (2, false, none)] := by decide +kernel

/-! ## Digits -/

/-- A block of digits and a digit of it. -/
theorem exists_zero_of_isDecimal {c : Char} (h : isDecimal c = true) : ∃ z ∈ Decimal.digitZeros, z ≤ c.toNat ∧ c.toNat < z + 10 := by
  unfold isDecimal Decimal.digitValue at h
  rw [Option.isSome_map] at h
  obtain ⟨z, hz⟩ := Option.isSome_iff_exists.mp h
  have hp := List.find?_some hz
  exact ⟨z, List.mem_of_find?_eq_some hz, of_decide_eq_true hp⟩

/-- Where a test of code points fails on every digit, it fails on a digit. -/
theorem not_of_isDecimal {c : Char} (h : isDecimal c = true) (p : Nat → Bool)
    (hp : (Decimal.digitZeros.all fun z => (List.range 10).all fun k => !p (z + k)) = true) : p c.toNat = false := by
  obtain ⟨z, hz, hlow, hhigh⟩ := exists_zero_of_isDecimal h
  have hk := List.all_eq_true.mp (List.all_eq_true.mp hp z hz) (c.toNat - z) (List.mem_range.mpr (by omega))
  rw [Nat.add_sub_cancel' hlow] at hk
  simpa using hk

theorem isSpace_of_isDecimal {c : Char} (h : isDecimal c = true) : isSpace c = false := by
  refine not_of_isDecimal h (fun n => (9 ≤ n && n ≤ 13) || (28 ≤ n && n ≤ 32) || n == 0x85 || n == 0xA0 || n == 0x1680 ||
    (0x2000 ≤ n && n ≤ 0x200A) || n == 0x2028 || n == 0x2029 || n == 0x202F || n == 0x205F || n == 0x3000) ?_
  decide +kernel

/-- A digit is none of the characters that are not digits. -/
theorem ne_of_isDecimal {c d : Char} (h : isDecimal c = true) (hd : isDecimal d = false) : c ≠ d := by
  rintro rfl
  rw [h] at hd
  nomatch hd

/-- Digits and what follows them. -/
theorem takeWhile_digits {W R : List Char} (hW : ∀ c ∈ W, isDecimal c = true) (hR : NoDigitHead R) :
    (W ++ R).takeWhile isDecimal = W ∧ (W ++ R).dropWhile isDecimal = R := by
  induction W with
  | nil =>
    cases R with
    | nil => exact ⟨rfl, rfl⟩
    | cons c R =>
      have hc : isDecimal c = false := hR
      exact ⟨List.takeWhile_cons_of_neg (by rw [hc]; nofun), List.dropWhile_cons_of_neg (by rw [hc]; nofun)⟩
  | cons c W ih =>
    have hc := hW c List.mem_cons_self
    obtain ⟨htake, hdrop⟩ := ih fun x hx => hW x (List.mem_cons_of_mem c hx)
    rw [List.cons_append, List.takeWhile_cons_of_pos hc, List.dropWhile_cons_of_pos hc, htake, hdrop]
    exact ⟨rfl, rfl⟩

theorem noDigitHead_dropWhile (cs : List Char) : NoDigitHead (cs.dropWhile isDecimal) := by
  unfold NoDigitHead
  cases h : cs.dropWhile isDecimal with
  | nil => rfl
  | cons c rest =>
    have hne : cs.dropWhile isDecimal ≠ [] := by rw [h]; nofun
    have hhead := List.head_dropWhile_not isDecimal hne
    simp only [h, List.head_cons] at hhead
    exact hhead

theorem all_takeWhile (cs : List Char) : ∀ c ∈ cs.takeWhile isDecimal, isDecimal c = true := fun _ hc => List.mem_takeWhile_imp hc

/-! ## Reading a numeral -/

/-- A fraction with its point. -/
def point (F : List Char) : List Char := if F = [] then [] else '.' :: F

/-- A text that begins with the digits `W` and the fraction `F`, each as long as it goes, and goes on with `R`. -/
structure Reads (cs W F R : List Char) : Prop where
  eq : cs = W ++ (point F ++ R)
  ne_nil : W ≠ []
  whole : ∀ c ∈ W, isDecimal c = true
  frac : ∀ c ∈ F, isDecimal c = true
  ended : NoDigitHead R
  no_fraction : F = [] → (takeFraction R).1 = []

theorem isDecimal_point : isDecimal '.' = false := by decide +kernel

theorem noDigitHead_point (F : List Char) {R : List Char} (h : NoDigitHead R) : NoDigitHead (point F ++ R) := by
  unfold point
  split
  · exact h
  · exact isDecimal_point

/-- What a fraction leaves. -/
theorem takeFraction_spec {R : List Char} (h : NoDigitHead R) :
    R = point (takeFraction R).1 ++ (takeFraction R).2 ∧ (∀ c ∈ (takeFraction R).1, isDecimal c = true) ∧
      NoDigitHead (takeFraction R).2 ∧ ((takeFraction R).1 = [] → (takeFraction R).2 = R) := by
  unfold takeFraction
  split
  · rename_i rest
    split
    · rename_i hdigit
      have hne : rest.takeWhile isDecimal ≠ [] := by
        cases rest with
        | nil => nomatch hdigit
        | cons d rest =>
          have hd : isDecimal d = true := hdigit
          rw [List.takeWhile_cons_of_pos hd]
          nofun
      refine ⟨?_, all_takeWhile rest, noDigitHead_dropWhile rest, fun hnil => absurd hnil hne⟩
      simp only [point, hne, if_false, List.cons_append, List.takeWhile_append_dropWhile]
    · exact ⟨rfl, nofun, h, fun _ => rfl⟩
  · exact ⟨rfl, nofun, h, fun _ => rfl⟩

/-- Without a group nothing is taken. -/
theorem takeGroups_nil {R : List Char} (h : (takeGroups R).1 = []) : takeGroups R = ([], R) := by
  unfold takeGroups at h ⊢
  split at h
  · split
    · rename_i hgroup
      rw [if_pos hgroup] at h
      nomatch h
    · rfl
  · rfl

/-- A numeral without separators is the digits and the fraction at the front. -/
theorem Numeral.read_spec {before : Option Char} {c : Char} {cs : List Char} (hc : isDecimal c = true)
    (hg : (Numeral.read before (c :: cs)).1.grouped = false) :
    ∃ W F R, Reads (c :: cs) W F R ∧ Numeral.read before (c :: cs) = (⟨before, W, false, F, R.head?⟩, R) := by
  have hended := noDigitHead_dropWhile (c :: cs)
  have hgroups : (if ((c :: cs).takeWhile isDecimal).length ≤ 3 then takeGroups ((c :: cs).dropWhile isDecimal)
      else ([], (c :: cs).dropWhile isDecimal)) = ([], (c :: cs).dropWhile isDecimal) := by
    split
    · rename_i hlen
      refine takeGroups_nil ?_
      simp only [Numeral.read, hlen, if_true, Bool.not_eq_false', List.isEmpty_iff] at hg
      exact hg
    · rfl
  obtain ⟨heq, hfrac, hrest, hnone⟩ := takeFraction_spec hended
  refine ⟨(c :: cs).takeWhile isDecimal, (takeFraction ((c :: cs).dropWhile isDecimal)).1,
    (takeFraction ((c :: cs).dropWhile isDecimal)).2, ⟨?_, ?_, all_takeWhile _, hfrac, hrest, fun hnil => ?_⟩, ?_⟩
  · rw [← heq, List.takeWhile_append_dropWhile]
  · rw [List.takeWhile_cons_of_pos hc]
    nofun
  · rw [hnone hnil]
    exact hnil
  · simp only [Numeral.read, hgroups, List.append_nil, List.isEmpty_nil, Bool.not_true]

/-! ## The number a text spells -/

/-- The number of the digits and the fraction at the front of a text, whatever its sign. -/
def spelled (cs : List Char) : ℚ :=
  let cs := (Decimal.takeSign cs).2
  let F := (takeFraction (cs.dropWhile isDecimal)).1
  (Decimal.digitsToNat (digitValues (cs.takeWhile isDecimal ++ F)) : ℚ) / 10 ^ F.length

theorem Reads.takeFraction_eq {cs W F R : List Char} (h : Reads cs W F R) : takeFraction (point F ++ R) = (F, R) := by
  by_cases hF : F = []
  · subst hF
    obtain ⟨-, -, -, hnone⟩ := takeFraction_spec h.ended
    have hnil := h.no_fraction rfl
    simp only [point, if_true, List.nil_append]
    exact Prod.ext hnil (hnone hnil)
  · obtain ⟨d, F', rfl⟩ := List.exists_cons_of_ne_nil hF
    have hd : isDecimal d = true := h.frac d List.mem_cons_self
    obtain ⟨htake, hdrop⟩ := takeWhile_digits h.frac h.ended
    simp only [point, hF, if_false, List.cons_append, takeFraction, List.head?_cons, Option.any_some, hd, if_true]
    rw [← List.cons_append, htake, hdrop]

/-- The sign is read off before a digit or not at all. -/
theorem takeSign_digits {cs W F R : List Char} (h : Reads cs W F R) : Decimal.takeSign cs = (false, cs) := by
  obtain ⟨c, W', rfl⟩ := List.exists_cons_of_ne_nil h.ne_nil
  have hc := h.whole c List.mem_cons_self
  rw [h.eq, List.cons_append]
  unfold Decimal.takeSign
  split
  · rename_i heq
    exact absurd (List.cons.inj heq).1 (ne_of_isDecimal hc (by decide +kernel))
  · rename_i heq
    exact absurd (List.cons.inj heq).1 (ne_of_isDecimal hc (by decide +kernel))
  · rfl

/-- A text with a sign or without. -/
inductive Signed (cs : List Char) : Bool → List Char → Prop where
  | bare : Signed cs false cs
  | plus : Signed cs false ('+' :: cs)
  | minus : Signed cs true ('-' :: cs)

theorem takeSign_signed {cs W F R : List Char} (h : Reads cs W F R) {negative : Bool} {w : List Char} (hs : Signed cs negative w) :
    Decimal.takeSign w = (negative, cs) := by
  cases hs with
  | bare => exact takeSign_digits h
  | plus => rfl
  | minus => rfl

theorem spelled_signed {cs W F R : List Char} (h : Reads cs W F R) {negative : Bool} {w : List Char} (hs : Signed cs negative w) :
    spelled w = (Decimal.digitsToNat (digitValues (W ++ F)) : ℚ) / 10 ^ F.length := by
  obtain ⟨htake, hdrop⟩ := takeWhile_digits h.whole (noDigitHead_point F h.ended)
  rw [← h.eq] at htake hdrop
  unfold spelled
  simp only [takeSign_signed h hs, htake, hdrop, h.takeFraction_eq]

/-! ## The decimal a text spells -/

theorem digitValue_of_isDecimal {c : Char} (h : isDecimal c = true) : ∃ v, Decimal.digitValue c = some v :=
  Option.isSome_iff_exists.mp h

theorem takeDigits_append {W R : List Char} (hW : ∀ c ∈ W, isDecimal c = true) (hR : NoDigitHead R) :
    Decimal.takeDigits (W ++ R) = (digitValues W, R) := by
  induction W with
  | nil =>
    cases R with
    | nil => rfl
    | cons c R =>
      have hc : Decimal.digitValue c = none := Option.not_isSome_iff_eq_none.mp (by rw [show (Decimal.digitValue c).isSome = false from hR]; nofun)
      simp only [List.nil_append, Decimal.takeDigits, hc]
      rfl
  | cons c W ih =>
    obtain ⟨v, hv⟩ := digitValue_of_isDecimal (hW c List.mem_cons_self)
    rw [List.cons_append, Decimal.takeDigits, hv, ih fun x hx => hW x (List.mem_cons_of_mem c hx)]
    simp only [digitValues, List.filterMap_cons, hv]

/-- The characters of a number: digits, a point and a sign. -/
theorem Signed.chars {cs W F : List Char} (h : Reads cs W F []) {negative : Bool} {w : List Char} (hs : Signed cs negative w) :
    ∀ c ∈ w, isDecimal c = true ∨ c = '.' ∨ c = '+' ∨ c = '-' := by
  have hcs : ∀ c ∈ cs, isDecimal c = true ∨ c = '.' ∨ c = '+' ∨ c = '-' := by
    intro c hc
    rw [h.eq, List.append_nil] at hc
    rcases List.mem_append.mp hc with hW | hF
    · exact .inl (h.whole c hW)
    · unfold point at hF
      split at hF
      · nomatch hF
      · rcases List.mem_cons.mp hF with rfl | hF
        · exact .inr (.inl rfl)
        · exact .inl (h.frac c hF)
  intro c hc
  cases hs with
  | bare => exact hcs c hc
  | plus =>
    rcases List.mem_cons.mp hc with rfl | hc
    · exact .inr (.inr (.inl rfl))
    · exact hcs c hc
  | minus =>
    rcases List.mem_cons.mp hc with rfl | hc
    · exact .inr (.inr (.inr rfl))
    · exact hcs c hc

/-- `Decimal(text)` of digits with a fraction, with or without a sign. -/
theorem ofString?_signed {cs W F : List Char} (h : Reads cs W F []) {negative : Bool} {w : List Char} (hs : Signed cs negative w) :
    Decimal.ofString? (String.ofList w) =
      if Decimal.constructible ⟨negative, Decimal.digitsToNat (digitValues (W ++ F)), -F.length⟩ then
        some ⟨negative, Decimal.digitsToNat (digitValues (W ++ F)), -F.length⟩
      else none := by
  have hchars := hs.chars h
  have hspace : ∀ c ∈ w, isSpace c = false := by
    intro c hc
    rcases hchars c hc with hd | rfl | rfl | rfl
    · exact isSpace_of_isDecimal hd
    · decide
    · decide
    · decide
  have hfilter : w.filter (· ≠ '_') = w := by
    refine List.filter_eq_self.mpr fun c hc => decide_eq_true ?_
    rcases hchars c hc with hd | rfl | rfl | rfl
    · exact ne_of_isDecimal hd (by decide +kernel)
    · decide
    · decide
    · decide
  have hdigits : Decimal.takeDigits cs = (digitValues W, point F) := by
    rw [h.eq, takeDigits_append h.whole (noDigitHead_point F h.ended), List.append_nil]
  have hwhole : digitValues W ≠ [] := by
    obtain ⟨c, W', rfl⟩ := List.exists_cons_of_ne_nil h.ne_nil
    obtain ⟨v, hv⟩ := digitValue_of_isDecimal (h.whole c List.mem_cons_self)
    simp [digitValues, hv]
  have hlength : ∀ l : List Char, (∀ c ∈ l, isDecimal c = true) → (digitValues l).length = l.length := by
    intro l hl
    induction l with
    | nil => rfl
    | cons c l ih =>
      obtain ⟨v, hv⟩ := digitValue_of_isDecimal (hl c List.mem_cons_self)
      have hrest := ih fun x hx => hl x (List.mem_cons_of_mem c hx)
      simp only [digitValues, List.filterMap_cons, hv, List.length_cons] at hrest ⊢
      rw [hrest]
  have happend : digitValues (W ++ F) = digitValues W ++ digitValues F := List.filterMap_append
  unfold Decimal.ofString?
  rw [strip_of_no_space hspace, String.toList_ofList, hfilter, takeSign_signed h hs]
  simp only [hdigits]
  by_cases hF : F = []
  · subst hF
    simp only [point, if_true, hwhole, false_and, if_false, Decimal.exponentPart, List.append_nil, List.length_nil]
    rfl
  · have hfrac : Decimal.takeDigits F = (digitValues F, []) := by
      have := takeDigits_append h.frac h.ended
      rwa [List.append_nil] at this
    simp only [point, hF, if_false, hfrac, hwhole, false_and, Decimal.exponentPart, hlength F h.frac, happend, zero_sub]

namespace Decimal

/-- Normalizing a number of the context keeps it. -/
theorem normalize_of_fits {c : DecimalContext} {d : Decimal} (h : Fits c d.toRat) :
    ∃ r, normalize c d = .ok r ∧ r.toRat = d.toRat := by
  obtain ⟨r, hfix, hr⟩ := fix_of_fits h
  by_cases hz : r.coeff = 0
  · refine ⟨⟨r.sign, 0, 0⟩, ?_, ?_⟩
    · simp only [normalize, hfix, bind, Except.bind, hz, if_true]
      rfl
    · rw [← hr, (toRat_eq_zero_iff r).mpr hz, toRat_eq_zero_iff]
  · obtain ⟨hdvd, hq⟩ := stripZeros_spec (min (numDigits r.coeff) (c.emax - r.exp).toNat) r.coeff
    refine ⟨⟨r.sign, (stripZeros (min (numDigits r.coeff) (c.emax - r.exp).toNat) r.coeff).1,
      r.exp + (stripZeros (min (numDigits r.coeff) (c.emax - r.exp).toNat) r.coeff).2⟩, ?_, ?_⟩
    · simp only [normalize, hfix, bind, Except.bind, hz, if_false]
      rfl
    · rw [hq, toRat_div_pow hdvd]
      exact hr

/-- The value of an ASCII digit. -/
theorem digitValue_ascii {c : Char} (h : c.isDigit = true) : digitValue c = some (c.toNat - 48) := by
  simp only [Char.isDigit, Bool.and_eq_true, decide_eq_true_eq] at h
  have hlow : 48 ≤ c.toNat := h.1
  have hhigh : c.toNat ≤ 57 := h.2
  have hblock : decide (0x30 ≤ c.toNat ∧ c.toNat < 0x30 + 10) = true := decide_eq_true ⟨hlow, by omega⟩
  simp only [digitValue, digitZeros, List.find?_cons, hblock]
  rfl

theorem isDecimal_ascii {c : Char} (h : c.isDigit = true) : isDecimal c = true := by
  unfold isDecimal
  rw [digitValue_ascii h]
  rfl

/-- ASCII digits spell what Lean's library reads from them. -/
theorem digitsToNat_ascii {cs : List Char} (h : ∀ c ∈ cs, c.isDigit = true) : digitsToNat (digitValues cs) = Nat.ofDigitChars 10 cs 0 := by
  have hvalues : digitValues cs = cs.map fun c => c.toNat - 48 := by
    unfold digitValues
    rw [List.filterMap_congr fun c hc => digitValue_ascii (h c hc), List.filterMap_eq_map']
  rw [hvalues, digitsToNat, List.foldl_map]
  rfl

/-- What a text of ASCII digits with a fraction spells. -/
theorem spelled_ascii {W F : List Char} (hne : W ≠ []) (hW : ∀ c ∈ W, c.isDigit = true) (hF : ∀ c ∈ F, c.isDigit = true)
    {negative : Bool} {w : List Char} (hs : Signed (W ++ point F) negative w) :
    spelled w = (Nat.ofDigitChars 10 (W ++ F) 0 : ℚ) / 10 ^ F.length := by
  have hreads : Reads (W ++ point F) W F [] :=
    ⟨by rw [List.append_nil], hne, fun c hc => isDecimal_ascii (hW c hc), fun c hc => isDecimal_ascii (hF c hc), rfl, fun _ => rfl⟩
  rw [spelled_signed hreads hs, digitsToNat_ascii fun c hc => ?_]
  rcases List.mem_append.mp hc with hc | hc
  · exact hW c hc
  · exact hF c hc

/-- The text of a decimal without an exponent spells it. -/
theorem spelled_formatF (d : Decimal) : spelled d.formatF.toList = |d.toRat| := by
  obtain ⟨D, hD⟩ : ∃ D, D = Nat.toDigits 10 d.coeff := ⟨_, rfl⟩
  obtain ⟨e, he⟩ : ∃ e, e = (if d.coeff = 0 then min d.exp 0 else d.exp) := ⟨_, rfl⟩
  have hdigits : ∀ c ∈ D, c.isDigit = true := fun c hc => Nat.isDigit_of_mem_toDigits (by decide) (by decide) (hD ▸ hc)
  have hzeros : ∀ n, ∀ c ∈ List.replicate n '0', c.isDigit = true := by
    intro n c hc
    rw [List.eq_of_mem_replicate hc]
    rfl
  have hne : D ≠ [] := hD ▸ Nat.toDigits_ne_nil
  have hpos : 0 < D.length := List.length_pos_iff.mpr hne
  have hcoeff : Nat.ofDigitChars 10 D 0 = d.coeff := hD ▸ Nat.ofDigitChars_ten_toDigits
  have habs : |d.toRat| = (d.coeff : ℚ) * (10 : ℚ) ^ e := by
    rw [abs_toRat]
    by_cases hz : d.coeff = 0
    · rw [hz, Nat.cast_zero, zero_mul, zero_mul]
    · rw [he, if_neg hz]
  -- the sign is written in front of whatever body the exponent gives
  have hsigned : ∀ body, Signed body d.sign ((if d.sign then ['-'] else []) ++ body) := by
    intro body
    cases d.sign
    · exact .bare
    · exact .minus
  have hfraction : ∀ (W F : List Char), W ≠ [] → (∀ c ∈ W, c.isDigit = true) → (∀ c ∈ F, c.isDigit = true) →
      Nat.ofDigitChars 10 (W ++ F) 0 = d.coeff → (F.length : Int) = -e →
      spelled ((if d.sign then ['-'] else []) ++ (W ++ point F)) = (d.coeff : ℚ) * (10 : ℚ) ^ e := by
    intro W F hW hWd hFd hvalue hlen
    rw [spelled_ascii hW hWd hFd (hsigned _), hvalue, show e = -(F.length : Int) by omega, zpow_neg, zpow_natCast]
    rfl
  rw [habs]
  unfold formatF
  rw [String.toList_ofList, Nat.toList_repr, ← hD, ← he]
  by_cases hleft : e + D.length ≤ 0
  · simp only [hleft, if_true]
    have hF : List.replicate (-(e + D.length)).toNat '0' ++ D ≠ [] := by simp [hne]
    have hbody := hfraction ['0'] (List.replicate (-(e + D.length)).toNat '0' ++ D) nofun (List.forall_mem_singleton.mpr rfl) (fun c hc => ?_) ?_ ?_
    · simpa only [point, hF, if_false, List.cons_append, List.nil_append, List.append_assoc] using hbody
    · rcases List.mem_append.mp hc with hc | hc
      · exact hzeros _ c hc
      · exact hdigits c hc
    · rw [← List.append_assoc, Nat.ofDigitChars_append, Nat.ofDigitChars_append, Nat.ofDigitChars_replicate_zero]
      exact hcoeff
    · rw [List.length_append, List.length_replicate]
      omega
  · by_cases hlong : (D.length : Int) ≤ e + D.length
    · simp only [hleft, hlong, if_true, if_false]
      have hbody := spelled_ascii (W := D ++ List.replicate (e + D.length - D.length).toNat '0') (F := []) (by simp [hne])
        (fun c hc => ?_) (fun c hc => absurd hc List.not_mem_nil) (hsigned _)
      · simp only [point, if_true, List.append_nil, List.length_nil, pow_zero, div_one] at hbody
        rw [hbody, Nat.ofDigitChars_append, Nat.ofDigitChars_replicate_zero, hcoeff]
        obtain ⟨k, hk⟩ := Int.eq_ofNat_of_zero_le (by omega : 0 ≤ e)
        rw [hk, zpow_natCast, show ((k : Int) + D.length - D.length).toNat = k by omega]
        push_cast
        ring
      · rcases List.mem_append.mp hc with hc | hc
        · exact hdigits c hc
        · exact hzeros _ c hc
    · simp only [hleft, hlong, if_false]
      have hF : D.drop (e + D.length).toNat ≠ [] := by
        rw [ne_eq, List.drop_eq_nil_iff]
        omega
      have hbody := hfraction (D.take (e + D.length).toNat) (D.drop (e + D.length).toNat) ?_
        (fun c hc => hdigits c (List.mem_of_mem_take hc)) (fun c hc => hdigits c (List.mem_of_mem_drop hc)) ?_ ?_
      · simpa only [point, hF, if_false, List.append_assoc, List.cons_append, List.nil_append] using hbody
      · rw [ne_eq, List.take_eq_nil_iff]
        rintro (h | h)
        · omega
        · exact hne h
      · rw [List.take_append_drop]
        exact hcoeff
      · rw [List.length_drop]
        omega

end Decimal

end Py
