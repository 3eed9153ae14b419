import Nl2Sql.Analysis.Evidence
import Nl2Sql.Lib.Method

/-!
# What the pattern reads of a text

The pattern and the numerals of a text go over it together. A numeral with a boundary on both sides is matched whole, with or without a
sign; a numeral without one is passed over, provided no part of it is a match of its own. A fraction gives such a part, for a boundary is
seen at the point, and so do digits beyond ASCII, which are no characters of a word.
-/

namespace Nl2Sql

open Py

/-- A numeral with a boundary on both sides. -/
def ClearSides (m : Numeral) : Prop := isClear m.before = true ∧ isClear m.next = true

instance (m : Numeral) : Decidable (ClearSides m) := inferInstanceAs (Decidable (_ ∧ _))

/-- A numeral that the pattern reads whole or not at all: it has no separators, and a boundary on both sides or neither a fraction nor a
digit beyond ASCII. -/
def ReadableNumeral (m : Numeral) : Prop :=
  m.grouped = false ∧ (ClearSides m ∨ (m.frac = [] ∧ ∀ c ∈ m.whole, isDigitAscii c = true))

instance (m : Numeral) : Decidable (ReadableNumeral m) := inferInstanceAs (Decidable (_ ∧ (_ ∨ (_ ∧ _))))

namespace EvidenceAux

/-! ## One match -/

/-- A point that is no fraction's is not followed by digits. -/
theorem takeWhile_of_no_fraction {rest : List Char} (h : (takeFraction ('.' :: rest)).1 = []) : rest.takeWhile isDecimal = [] := by
  cases rest with
  | nil => rfl
  | cons d rest =>
    cases hd : isDecimal d with
    | false => exact List.takeWhile_cons_of_neg (by rw [hd]; rintro ⟨⟩)
    | true =>
      simp only [takeFraction, List.head?_cons, Option.any_some, hd, if_true, List.takeWhile_cons_of_pos] at h
      cases h

/-- The first end that is tried is that of the whole numeral. -/
theorem bodyEnds_reads {cs W F R : List Char} (h : Reads cs W F R) : ∃ rest, bodyEnds cs = (W ++ point F).length :: rest := by
  obtain ⟨htake, -⟩ := takeWhile_digits h.whole (noDigitHead_point F h.ended)
  rw [← h.eq] at htake
  obtain ⟨n, hn⟩ : ∃ n, W.length = n + 1 := Nat.exists_eq_succ_of_ne_zero (by simpa using h.ne_nil)
  have hdrop : cs.drop (n + 1) = point F ++ R := by rw [h.eq, ← hn, List.drop_left]
  unfold bodyEnds
  rw [htake, hn, List.range_succ, List.reverse_append, List.map_append, List.flatMap_append]
  simp only [List.reverse_singleton, List.map_singleton, List.flatMap_singleton, fractionEnds, hdrop]
  by_cases hF : F = []
  · have hnone := h.takeFraction_eq
    subst hF
    simp only [point, if_true, List.nil_append, List.append_nil] at hnone ⊢
    rw [hn]
    split
    · rename_i rest
      rw [takeWhile_of_no_fraction (congrArg Prod.fst hnone)]
      exact ⟨_, rfl⟩
    · exact ⟨_, rfl⟩
  · obtain ⟨m, hm⟩ : ∃ m, F.length = m + 1 := Nat.exists_eq_succ_of_ne_zero (by simpa using hF)
    obtain ⟨hfrac, -⟩ := takeWhile_digits h.frac h.ended
    simp only [point, hF, if_false, List.cons_append, hfrac, hm, List.range_succ, List.map_append, List.reverse_append,
      List.map_singleton, List.reverse_singleton, List.length_append, List.length_cons, hn]
    exact ⟨_, by rw [show n + 1 + 2 + m = n + 1 + (m + 1 + 1) by omega]⟩

/-- A numeral with a boundary after it is matched whole. -/
theorem matchBody_clear {cs W F R : List Char} (h : Reads cs W F R) (hclear : isClear R.head? = true) :
    matchBody cs = some (W ++ point F).length := by
  obtain ⟨rest, hends⟩ := bodyEnds_reads h
  have hdrop : cs.drop (W ++ point F).length = R := by
    rw [h.eq, ← List.append_assoc, List.drop_left]
  unfold matchBody
  rw [hends, List.find?_cons_of_pos (by rw [hdrop]; exact hclear)]

/-- A text that begins with no digit has no match of the body. -/
theorem matchBody_noDigitHead {cs : List Char} (h : NoDigitHead cs) : matchBody cs = none := by
  obtain ⟨htake, -⟩ := takeWhile_digits (W := []) (fun _ hc => absurd hc List.not_mem_nil) h
  rw [List.nil_append] at htake
  unfold matchBody bodyEnds
  rw [htake]
  rfl

theorem isClear_ascii {c : Char} (h : isDigitAscii c = true) : isClear (some c) = false := by
  simp [isClear, isWordAscii, h]

/-- ASCII digits without a fraction and without a boundary after them are not matched, nor is a part of them. -/
theorem matchBody_blocked {cs W R : List Char} (h : Reads cs W [] R) (hascii : ∀ c ∈ W, isDigitAscii c = true)
    (hblocked : isClear R.head? = false) : matchBody cs = none := by
  obtain ⟨htake, -⟩ := takeWhile_digits h.whole (noDigitHead_point [] h.ended)
  rw [← h.eq] at htake
  have heq : cs = W ++ R := h.eq
  -- every end that is tried is inside the digits or right after them
  have hends : ∀ k ∈ bodyEnds cs, isClear (cs.drop k).head? = false := by
    intro k hk
    unfold bodyEnds at hk
    rw [htake] at hk
    obtain ⟨n, hn, hk⟩ := List.mem_flatMap.mp hk
    obtain ⟨i, hi, rfl⟩ := List.mem_map.mp hn
    rw [List.mem_reverse, List.mem_range] at hi
    have hinside : i + 1 < W.length → ∃ c rest, cs.drop (i + 1) = c :: rest ∧ isDigitAscii c = true ∧ c ≠ '.' := by
      intro hlt
      refine ⟨W[i + 1], (W ++ R).drop (i + 2), ?_, hascii _ (List.getElem_mem _), ?_⟩
      · rw [heq, List.drop_eq_getElem_cons (by rw [List.length_append]; omega), List.getElem_append_left hlt]
      · exact ne_of_isDecimal (h.whole _ (List.getElem_mem _)) isDecimal_point
    have hnone : fractionEnds cs (i + 1) = [] := by
      unfold fractionEnds
      rcases Nat.lt_or_ge (i + 1) W.length with hlt | hge
      · obtain ⟨c, rest, hdrop, -, hne⟩ := hinside hlt
        rw [hdrop]
        split
        · rename_i heq
          exact absurd (List.cons.inj heq).1 hne
        · rfl
      · have hdrop : cs.drop (i + 1) = R := by rw [heq, show i + 1 = W.length by omega, List.drop_left]
        have hfrac := h.no_fraction rfl
        rw [hdrop]
        split
        · rename_i rest
          rw [takeWhile_of_no_fraction hfrac]
          rfl
        · rfl
    rw [hnone, List.nil_append, List.mem_singleton] at hk
    subst hk
    rcases Nat.lt_or_ge (i + 1) W.length with hlt | hge
    · obtain ⟨c, rest, hdrop, hc, -⟩ := hinside hlt
      rw [hdrop]
      exact isClear_ascii hc
    · rw [heq, show i + 1 = W.length by omega, List.drop_left]
      exact hblocked
  unfold matchBody
  rw [List.find?_eq_none]
  intro k hk
  rw [hends k hk]
  rintro ⟨⟩

/-! ## The whole text -/

/-- A match is the numeral, with or without a sign. -/
def MatchOf (w : List Char) (m : Numeral) : Prop := ∃ negative, Signed m.chars negative w

theorem findNumbers_none {rounds : Nat} {before : Option Char} {c : Char} {cs : List Char}
    (h : isClear before = true → matchNumber (c :: cs) = none) :
    findNumbers (rounds + 1) before (c :: cs) = findNumbers rounds (some c) cs := by
  rw [findNumbers]
  cases hb : isClear before with
  | false => simp only [Bool.false_eq_true, if_false]
  | true => simp only [if_true, h hb]

theorem findNumbers_some {rounds : Nat} {before : Option Char} {c : Char} {cs w R : List Char} (hb : isClear before = true)
    (hw : c :: cs = w ++ R) (h : matchNumber (c :: cs) = some w.length) :
    findNumbers (rounds + 1) before (c :: cs) = w :: findNumbers rounds w.getLast? R := by
  rw [findNumbers]
  simp only [hb, if_true, h]
  rw [hw, List.take_left, List.drop_left]

/-- Inside ASCII digits nothing is matched. -/
theorem findNumbers_digits {W R : List Char} (hascii : ∀ c ∈ W, isDigitAscii c = true) {before : Option Char}
    (hb : isClear before = false) (rounds : Nat) :
    findNumbers (rounds + W.length) before (W ++ R) = findNumbers rounds (W.getLast?.or before) R := by
  induction W generalizing before with
  | nil => rfl
  | cons c W ih =>
    have hc := hascii c List.mem_cons_self
    rw [List.length_cons, ← Nat.add_assoc, List.cons_append, findNumbers_none (fun h => by rw [hb] at h; cases h),
      ih (fun x hx => hascii x (List.mem_cons_of_mem c hx)) (isClear_ascii hc), List.getLast?_cons]
    cases W.getLast? <;> rfl

theorem matchNumber_digit {c : Char} {cs : List Char} (hc : isDecimal c = true) : matchNumber (c :: cs) = matchBody (c :: cs) := by
  unfold matchNumber
  split
  · rename_i heq
    exact absurd (List.cons.inj heq).1 (ne_of_isDecimal hc (by decide +kernel))
  · rename_i heq
    exact absurd (List.cons.inj heq).1 (ne_of_isDecimal hc (by decide +kernel))
  · rfl

/-- The numeral at the front of a text, where it has no separators. -/
theorem scan_digit {rounds : Nat} {before : Option Char} {c : Char} {cs : List Char} (hc : isDecimal c = true)
    (hgrouped : ∀ m ∈ Numeral.scan (rounds + 1) before (c :: cs), m.grouped = false) :
    ∃ W F R, Reads (c :: cs) W F R ∧ Numeral.scan (rounds + 1) before (c :: cs) =
      ⟨before, W, false, F, R.head?⟩ :: Numeral.scan rounds (W ++ point F).getLast? R := by
  have hscan : Numeral.scan (rounds + 1) before (c :: cs) = (Numeral.read before (c :: cs)).1 ::
      Numeral.scan rounds ((Numeral.read before (c :: cs)).1.whole ++ (Numeral.read before (c :: cs)).1.frac).getLast?
        (Numeral.read before (c :: cs)).2 := by
    rw [Numeral.scan]
    simp only [hc, if_true]
  rw [hscan] at hgrouped
  obtain ⟨W, F, R, hreads, hread⟩ := Numeral.read_spec hc (hgrouped _ List.mem_cons_self)
  have hlast : (W ++ F).getLast? = (W ++ point F).getLast? := by
    unfold point
    split
    · rename_i hF
      rw [hF]
    · rename_i hF
      rw [List.getLast?_append, List.getLast?_append, List.getLast?_cons_of_ne_nil hF]
  refine ⟨W, F, R, hreads, ?_⟩
  rw [hscan, hread, hlast]

/-- A match that does not begin with a digit is a sign and the body. -/
theorem matchNumber_sign {c : Char} {cs : List Char} (hc : isDecimal c = false) {k : Nat} (h : matchNumber (c :: cs) = some k) :
    (c = '-' ∨ c = '+') ∧ ∃ n, matchBody cs = some n ∧ k = n + 1 := by
  unfold matchNumber at h
  split at h
  · rename_i heq
    cases heq
    obtain ⟨n, hn, rfl⟩ := Option.map_eq_some_iff.mp h
    exact ⟨.inl rfl, n, hn, rfl⟩
  · rename_i heq
    cases heq
    obtain ⟨n, hn, rfl⟩ := Option.map_eq_some_iff.mp h
    exact ⟨.inr rfl, n, hn, rfl⟩
  · rw [matchBody_noDigitHead (show NoDigitHead (c :: cs) from hc)] at h
    nomatch h

/-- ASCII digits that are passed over. -/
theorem findNumbers_blocked {W R cs : List Char} {c : Char} {before : Option Char} (hc : isDecimal c = true)
    (hreads : Reads (c :: cs) W [] R) (hascii : ∀ x ∈ W, isDigitAscii x = true)
    (hblocked : isClear before = true → isClear R.head? = false) {rounds : Nat} (hrounds : W.length ≤ rounds) :
    findNumbers rounds before (c :: cs) = findNumbers (rounds - W.length) W.getLast? R := by
  obtain ⟨d, W', rfl⟩ := List.exists_cons_of_ne_nil hreads.ne_nil
  have heq : c :: cs = d :: (W' ++ R) := hreads.eq
  obtain ⟨rfl, rfl⟩ := List.cons.inj heq
  rw [List.length_cons] at hrounds
  obtain ⟨r, rfl⟩ : ∃ r, rounds = r + W'.length + 1 := ⟨rounds - W'.length - 1, by omega⟩
  have hnone : isClear before = true → matchNumber (c :: (W' ++ R)) = none := by
    intro hb
    rw [matchNumber_digit hc]
    exact matchBody_blocked hreads hascii (hblocked hb)
  rw [findNumbers_none hnone, findNumbers_digits (fun x hx => hascii x (List.mem_cons_of_mem c hx))
    (isClear_ascii (hascii c List.mem_cons_self)), List.getLast?_cons, List.length_cons]
  rw [show r + W'.length + 1 - (W'.length + 1) = r by omega]
  cases W'.getLast? <;> rfl

/-- Where every numeral of a text is readable, the matches are those with a boundary on both sides, in their order. The induction is on
the length of the text: a match may take a sign and a numeral at once, and a numeral that is passed over takes the pattern a round for
each digit. -/
theorem findNumbers_scan (length : Nat) : ∀ (cs : List Char) (before : Option Char) (rounds rounds' : Nat), cs.length ≤ length →
    cs.length ≤ rounds → cs.length ≤ rounds' → (∀ m ∈ Numeral.scan rounds' before cs, ReadableNumeral m) →
    List.Forall₂ MatchOf (findNumbers rounds before cs) ((Numeral.scan rounds' before cs).filter fun m => ClearSides m) := by
  induction length with
  | zero =>
    intro cs before rounds rounds' hlen _ _ _
    have hnil : cs = [] := List.eq_nil_of_length_eq_zero (by omega)
    subst hnil
    simp only [findNumbers, Numeral.scan, List.filter_nil]
    exact .nil
  | succ length ih =>
    intro cs before rounds rounds' hlen hrounds hrounds' hreadable
    cases cs with
    | nil =>
      simp only [findNumbers, Numeral.scan, List.filter_nil]
      exact .nil
    | cons c cs =>
      rw [List.length_cons] at hlen hrounds hrounds'
      obtain ⟨r, rfl⟩ : ∃ r, rounds = r + 1 := ⟨rounds - 1, by omega⟩
      obtain ⟨r', rfl⟩ : ∃ r', rounds' = r' + 1 := ⟨rounds' - 1, by omega⟩
      cases hc : isDecimal c with
      | true =>
        obtain ⟨W, F, R, hreads, hscan⟩ := scan_digit hc fun m hm => (hreadable m hm).1
        rw [hscan] at hreadable ⊢
        have hlengths : cs.length + 1 = (W ++ point F).length + R.length := by
          rw [← List.length_cons, hreads.eq, ← List.append_assoc, List.length_append]
        have hpos : 0 < W.length := List.length_pos_iff.mpr hreads.ne_nil
        rw [List.length_append] at hlengths
        have hrest : ∀ rounds, R.length ≤ rounds → List.Forall₂ MatchOf (findNumbers rounds (W ++ point F).getLast? R)
            ((Numeral.scan r' (W ++ point F).getLast? R).filter fun m => ClearSides m) := fun rounds hr =>
          ih R _ rounds r' (by omega) hr (by omega) fun m hm => hreadable m (List.mem_cons_of_mem _ hm)
        by_cases hclear : ClearSides ⟨before, W, false, F, R.head?⟩
        · rw [List.filter_cons_of_pos (p := fun m => decide (ClearSides m)) (decide_eq_true hclear), findNumbers_some hclear.1 (by rw [hreads.eq, List.append_assoc])
            (by rw [matchNumber_digit hc, matchBody_clear hreads hclear.2])]
          exact .cons ⟨false, .bare⟩ (hrest r (by omega))
        · rw [List.filter_cons_of_neg (by rw [decide_eq_true_eq]; exact hclear)]
          obtain ⟨-, hbad | ⟨hF, hascii⟩⟩ := hreadable _ List.mem_cons_self
          · exact absurd hbad hclear
          · change F = [] at hF
            subst hF
            have hblocked : isClear before = true → isClear R.head? = false := by
              intro hb
              rw [Bool.eq_false_iff]
              exact fun hn => hclear ⟨hb, hn⟩
            rw [findNumbers_blocked hc hreads hascii hblocked (by omega)]
            have htail := hrest (r + 1 - W.length) (by omega)
            simp only [point, if_true, List.append_nil] at htail ⊢
            exact htail
      | false =>
        have hscan : Numeral.scan (r' + 1) before (c :: cs) = Numeral.scan r' (some c) cs := by
          rw [Numeral.scan]
          simp only [hc, Bool.false_eq_true, if_false]
        rw [hscan] at hreadable ⊢
        by_cases hmatch : isClear before = true ∧ ∃ k, matchNumber (c :: cs) = some k
        · -- a sign and the numeral after it are one match
          obtain ⟨hb, k, hk⟩ := hmatch
          obtain ⟨hsign, n, hn, rfl⟩ := matchNumber_sign hc hk
          have hclear : isClear (some c) = true := by rcases hsign with rfl | rfl <;> decide
          cases cs with
          | nil => cases hn
          | cons d cs =>
            cases hd : isDecimal d with
            | false =>
              rw [matchBody_noDigitHead (show NoDigitHead (d :: cs) from hd)] at hn
              cases hn
            | true =>
              rw [List.length_cons] at hlen hrounds hrounds'
              obtain ⟨q, rfl⟩ : ∃ q, r' = q + 1 := ⟨r' - 1, by omega⟩
              obtain ⟨W, F, R, hreads, hscan'⟩ := scan_digit hd fun m hm => (hreadable m hm).1
              rw [hscan'] at hreadable ⊢
              have hlengths : cs.length + 1 = (W ++ point F).length + R.length := by
                rw [← List.length_cons, hreads.eq, ← List.append_assoc, List.length_append]
              have hpos : 0 < (W ++ point F).length :=
                List.length_pos_iff.mpr (List.append_ne_nil_of_left_ne_nil hreads.ne_nil _)
              have hnext : isClear R.head? = true := by
                cases hnext : isClear R.head? with
                | true => rfl
                | false =>
                  obtain ⟨-, hbad | ⟨hF, hascii⟩⟩ := hreadable _ List.mem_cons_self
                  · exact hnext.symm.trans hbad.2
                  · change F = [] at hF
                    subst hF
                    rw [matchBody_blocked hreads hascii hnext] at hn
                    cases hn
              rw [matchBody_clear hreads hnext] at hn
              have hw : c :: d :: cs = (c :: (W ++ point F)) ++ R := by
                rw [hreads.eq, List.cons_append, List.append_assoc]
              have hlast : (c :: (W ++ point F)).getLast? = (W ++ point F).getLast? :=
                List.getLast?_cons_of_ne_nil (List.append_ne_nil_of_left_ne_nil hreads.ne_nil _)
              rw [List.filter_cons_of_pos (p := fun m => decide (ClearSides m)) (decide_eq_true ⟨hclear, hnext⟩),
                findNumbers_some hb hw (by rw [hk, List.length_cons, Option.some.inj hn]), hlast]
              refine .cons ?_ (ih R _ r q (by omega) (by omega) (by omega) fun m hm => hreadable m (List.mem_cons_of_mem _ hm))
              rcases hsign with rfl | rfl
              · exact ⟨true, .minus⟩
              · exact ⟨false, .plus⟩
        · rw [findNumbers_none fun hb => ?_]
          · exact ih cs (some c) r r' (by omega) (by omega) (by omega) hreadable
          · cases hk : matchNumber (c :: cs) with
            | none => rfl
            | some k => exact absurd ⟨hb, k, hk⟩ hmatch

/-- The numerals of a text are made of digits. -/
theorem scan_digits (rounds : Nat) : ∀ (before : Option Char) (cs : List Char), (∀ m ∈ Numeral.scan rounds before cs, m.grouped = false) →
    ∀ m ∈ Numeral.scan rounds before cs, Reads m.chars m.whole m.frac [] ∧ m.chars.length ≤ cs.length := by
  induction rounds with
  | zero =>
    intro before cs _ m hm
    cases cs <;> nomatch hm
  | succ rounds ih =>
    intro before cs hgrouped m hm
    cases cs with
    | nil => nomatch hm
    | cons c cs =>
      cases hc : isDecimal c with
      | true =>
        obtain ⟨W, F, R, hreads, hscan⟩ := scan_digit hc hgrouped
        rw [hscan] at hm hgrouped
        have hlength : (c :: cs).length = (W ++ point F).length + R.length := by
          rw [hreads.eq, ← List.append_assoc, List.length_append]
        rcases List.mem_cons.mp hm with rfl | hm
        · refine ⟨⟨?_, hreads.ne_nil, hreads.whole, hreads.frac, rfl, fun _ => rfl⟩, ?_⟩
          · rw [List.append_nil]
            rfl
          · change (W ++ point F).length ≤ _
            omega
        · obtain ⟨hm, hle⟩ := ih _ R (fun x hx => hgrouped x (List.mem_cons_of_mem _ hx)) m hm
          exact ⟨hm, by omega⟩
      | false =>
        have hscan : Numeral.scan (rounds + 1) before (c :: cs) = Numeral.scan rounds (some c) cs := by
          rw [Numeral.scan]
          simp only [hc, Bool.false_eq_true, if_false]
        rw [hscan] at hm hgrouped
        obtain ⟨hm, hle⟩ := ih _ cs hgrouped m hm
        exact ⟨hm, by rw [List.length_cons]; omega⟩

/-! ## Tokens -/

/-- The decimal of a match. -/
def decimalOf (m : Numeral) (negative : Bool) : Decimal := ⟨negative, Decimal.digitsToNat (digitValues (m.whole ++ m.frac)), -m.frac.length⟩

theorem abs_decimalOf (m : Numeral) (negative : Bool) : |(decimalOf m negative).toRat| = m.value := by
  rw [Decimal.abs_toRat]
  unfold decimalOf Numeral.value
  rw [zpow_neg, zpow_natCast]
  rfl

/-- A numeral of at most 28 digits fits whatever its sign. -/
theorem fits_decimalOf {m : Numeral} (h : Fits .default m.value) (negative : Bool) : Fits .default (decimalOf m negative).toRat := by
  obtain ⟨n, e, hq, hn, hlow, hhigh⟩ := h
  rw [← abs_decimalOf m negative] at hq
  rcases abs_choice (decimalOf m negative).toRat with habs | habs
  · exact ⟨n, e, habs ▸ hq, hn, hlow, hhigh⟩
  · refine ⟨-n, e, ?_, by rwa [Int.natAbs_neg], hlow, hhigh⟩
    rw [habs] at hq
    rw [Int.cast_neg, neg_mul, ← hq, neg_neg]

/-- A token spells the number of the numeral it was read from. -/
theorem token_spells {m : Numeral} (h : Fits .default m.value) (negative : Bool) :
    ∃ r, (decimalOf m negative).normalize .default = .ok r ∧ spelled r.formatF.toList = m.value := by
  obtain ⟨r, hr, hvalue⟩ := Decimal.normalize_of_fits (fits_decimalOf h negative)
  refine ⟨r, hr, ?_⟩
  rw [Decimal.spelled_formatF, hvalue, abs_decimalOf]

end EvidenceAux

end Nl2Sql
