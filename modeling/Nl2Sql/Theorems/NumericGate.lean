import Nl2Sql.Lemmas.Evidence

/-!
# The numeric gate

An accepted interpretation states no number that its facts do not, provided that the pattern reads the numerals of its statements whole
and takes no part of a numeral of a fact for a number.
-/

namespace Nl2Sql

open Py

/-- A numeral of a statement that the gate sees as it is: a boundary on both sides, no separators, at most 28 significant digits. -/
def PlainNumeral (m : Numeral) : Prop := m.grouped = false ∧ ClearSides m ∧ Fits .default m.value

/-- A numeral of a fact that the gate takes for what it is or not at all. -/
def SourceNumeral (m : Numeral) : Prop := ReadableNumeral m ∧ Fits .default m.value

/-- Every numeral of a statement equals one in the traceable fields of a fact that it cites. -/
def Traced (evidence : AnalysisEvidenceBundle) (statement : AnalysisStatement) : Prop :=
  ∀ m ∈ numerals statement.text.val, ∃ fact ∈ evidence.cited statement, ∃ m' ∈ numerals fact.traceable, m'.value = m.value

instance (evidence : AnalysisEvidenceBundle) (statement : AnalysisStatement) : Decidable (Traced evidence statement) :=
  inferInstanceAs (Decidable (∀ m ∈ _, ∃ fact ∈ _, ∃ m' ∈ _, _))

namespace EvidenceAux

/-- What a list of digits spells is less than the power of ten of its length. -/
theorem digitsToNat_lt (cs : List Char) : Decimal.digitsToNat (digitValues cs) < 10 ^ cs.length := by
  have hdigit : ∀ c v, Decimal.digitValue c = some v → v < 10 := by
    intro c v hv
    unfold Decimal.digitValue at hv
    obtain ⟨z, hz, rfl⟩ := Option.map_eq_some_iff.mp hv
    have hp := List.find?_some hz
    rw [decide_eq_true_eq] at hp
    omega
  have hfold : ∀ a, (digitValues cs).foldl (fun n d => 10 * n + d) a < (a + 1) * 10 ^ cs.length := by
    induction cs with
    | nil => intro a; simp [digitValues]
    | cons c cs ih =>
      intro a
      unfold digitValues at ih ⊢
      rw [List.filterMap_cons, List.length_cons, Nat.pow_succ]
      cases hv : Decimal.digitValue c with
      | none =>
        have := ih a
        simp only
        calc _ < (a + 1) * 10 ^ cs.length := this
          _ ≤ (a + 1) * (10 ^ cs.length * 10) := Nat.mul_le_mul_left _ (by omega)
      | some v =>
        have := hdigit c v hv
        simp only [List.foldl_cons]
        calc _ < (10 * a + v + 1) * 10 ^ cs.length := ih (10 * a + v)
          _ ≤ ((a + 1) * 10) * 10 ^ cs.length := Nat.mul_le_mul_right _ (by omega)
          _ = (a + 1) * (10 ^ cs.length * 10) := by rw [Nat.mul_assoc, Nat.mul_comm 10]
  have h := hfold 0
  rw [Nat.zero_add, Nat.one_mul] at h
  exact h

/-- A numeral of a statement is short enough for a decimal. -/
theorem constructible_decimalOf {m : Numeral} (h : m.chars.length ≤ 2048) (negative : Bool) :
    Decimal.constructible (decimalOf m negative) = true := by
  have hlength : m.whole.length + m.frac.length ≤ 2048 := by
    unfold Numeral.chars at h
    split at h
    · rename_i hF
      rw [hF, List.length_nil]
      simpa using h
    · rw [List.length_append, List.length_cons] at h
      omega
  have hdigits := digitsToNat_lt (m.whole ++ m.frac)
  rw [List.length_append] at hdigits
  unfold Decimal.constructible decimalOf Decimal.adjusted
  rw [decide_eq_true_eq]
  refine ⟨by simp only; omega, ?_⟩
  split
  · simp only
    omega
  · rename_i hne
    have hpos : 1 ≤ m.whole.length + m.frac.length := by
      by_contra hzero
      rw [show m.whole.length + m.frac.length = 0 by omega, Nat.pow_zero, Nat.lt_one_iff] at hdigits
      exact hne hdigits
    have := Decimal.numDigits_le_of_lt hpos hdigits
    simp only
    omega

theorem exists_match_of_mem {found : List (List Char)} {ms : List Numeral} (h : List.Forall₂ MatchOf found ms) {m : Numeral}
    (hm : m ∈ ms) : ∃ w ∈ found, MatchOf w m := by
  induction h with
  | nil => nomatch hm
  | cons hw _ ih =>
    rcases List.mem_cons.mp hm with rfl | hm
    · exact ⟨_, List.mem_cons_self, hw⟩
    · obtain ⟨w, hmem, hw⟩ := ih hm
      exact ⟨w, List.mem_cons_of_mem _ hmem, hw⟩

theorem exists_numeral_of_mem {found : List (List Char)} {ms : List Numeral} (h : List.Forall₂ MatchOf found ms) {w : List Char}
    (hw : w ∈ found) : ∃ m ∈ ms, MatchOf w m := by
  induction h with
  | nil => nomatch hw
  | cons hm _ ih =>
    rcases List.mem_cons.mp hw with rfl | hw
    · exact ⟨_, List.mem_cons_self, hm⟩
    · obtain ⟨m, hmem, hm⟩ := ih hw
      exact ⟨m, List.mem_cons_of_mem _ hmem, hm⟩

/-- The tokens of a text, by the numbers found in it. -/
theorem numericTokens_eq_ok {text : String} {tokens : List String} (h : numericTokens text = .ok tokens) :
    ∀ token, token ∈ tokens ↔ ∃ found ∈ findNumbers text.toList.length none text.toList, ∃ number,
      Decimal.ofString? (String.ofList found) = some number ∧ ∃ r, number.normalize .default = .ok r ∧ r.formatF = token := by
  obtain ⟨rfl, hall⟩ := mapM_eq_ok (g := fun number => (number.normalize .default).toOption.elim "" (·.formatF)) (fun number token hnumber => by
      revert hnumber
      cases number.normalize .default with
      | ok r => exact Except.ok.inj
      | error e => rintro ⟨⟩) h
  intro token
  rw [List.mem_map]
  constructor
  · rintro ⟨number, hnumber, rfl⟩
    obtain ⟨found, hfound, hof⟩ := List.mem_filterMap.mp hnumber
    have hok := hall number hnumber
    refine ⟨found, hfound, number, hof, ?_⟩
    revert hok
    cases number.normalize .default with
    | ok r => exact fun _ => ⟨r, rfl, rfl⟩
    | error e => rintro ⟨⟩
  · rintro ⟨found, hfound, number, hof, r, hr, rfl⟩
    refine ⟨number, List.mem_filterMap.mpr ⟨found, hfound, hof⟩, ?_⟩
    rw [hr]
    rfl

/-- Every numeral of a plain text has its token. -/
theorem tokens_of_plain {text : String} (hlength : text.length ≤ 2048) (hplain : ∀ m ∈ numerals text, PlainNumeral m)
    {tokens : List String} (h : numericTokens text = .ok tokens) :
    ∀ m ∈ numerals text, ∃ token ∈ tokens, spelled token.toList = m.value := by
  intro m hm
  have hreadable : ∀ m ∈ numerals text, ReadableNumeral m := fun x hx => ⟨(hplain x hx).1, .inl (hplain x hx).2.1⟩
  have hmatches := findNumbers_scan text.toList.length text.toList none _ _ (Nat.le_refl _) (Nat.le_refl _) (Nat.le_refl _) hreadable
  have hmem : m ∈ (numerals text).filter fun m => ClearSides m := List.mem_filter.mpr ⟨hm, decide_eq_true (hplain m hm).2.1⟩
  obtain ⟨found, hfound, negative, hsigned⟩ := exists_match_of_mem hmatches hmem
  obtain ⟨hreads, hle⟩ := scan_digits _ _ _ (fun x hx => (hplain x hx).1) m hm
  have hshort : m.chars.length ≤ 2048 := hle.trans (by rw [String.length_toList]; exact hlength)
  have hof : Decimal.ofString? (String.ofList found) = some (decimalOf m negative) :=
    (ofString?_signed hreads hsigned).trans (if_pos (constructible_decimalOf hshort negative))
  obtain ⟨r, hr, hspelled⟩ := token_spells (hplain m hm).2.2 negative
  exact ⟨r.formatF, (numericTokens_eq_ok h _).mpr ⟨found, hfound, _, hof, r, hr, rfl⟩, hspelled⟩

/-- Every token of a fact is one of its numerals. -/
theorem tokens_of_source {text : String} (hsource : ∀ m ∈ numerals text, SourceNumeral m) {tokens : List String}
    (h : numericTokens text = .ok tokens) : ∀ token ∈ tokens, ∃ m ∈ numerals text, spelled token.toList = m.value := by
  intro token htoken
  obtain ⟨found, hfound, number, hof, r, hr, rfl⟩ := (numericTokens_eq_ok h token).mp htoken
  have hmatches := findNumbers_scan text.toList.length text.toList none _ _ (Nat.le_refl _) (Nat.le_refl _) (Nat.le_refl _)
    fun x hx => (hsource x hx).1
  obtain ⟨m, hmem, negative, hsigned⟩ := exists_numeral_of_mem hmatches hfound
  have hm : m ∈ numerals text := (List.mem_filter.mp hmem).1
  obtain ⟨hreads, -⟩ := scan_digits _ _ _ (fun x hx => (hsource x hx).1.1) m hm
  rw [ofString?_signed hreads hsigned] at hof
  split at hof
  · obtain ⟨r', hr', hspelled⟩ := token_spells (hsource m hm).2 negative
    have hnumber : decimalOf m negative = number := Option.some.inj hof
    rw [hnumber, hr] at hr'
    cases hr'
    exact ⟨m, hm, hspelled⟩
  · nomatch hof

/-- What an accepted statement has passed. -/
theorem validateStatement_eq_ok {evidence : AnalysisEvidenceBundle} {statement : AnalysisStatement}
    (h : validateStatement evidence statement = .ok ()) :
    ∃ allowed actual, (evidence.cited statement).mapM (fun fact => numericTokens fact.traceable) = .ok allowed ∧
      numericTokens statement.text.val = .ok actual ∧ ∀ token ∈ actual, token ∈ allowed.flatten := by
  unfold validateStatement at h
  split at h
  · nomatch h
  · obtain ⟨allowed, hallowed, h⟩ := bind_eq_ok.mp h
    obtain ⟨actual, hactual, h⟩ := bind_eq_ok.mp h
    split at h
    · nomatch h
    · rename_i hsubset
      exact ⟨allowed, actual, hallowed, hactual, not_not.mp hsubset⟩

/-- A token that is allowed was read from a cited fact. -/
theorem exists_fact_of_token {facts : List AnalysisEvidenceFact} {allowed : List (List String)}
    (h : facts.mapM (fun fact => numericTokens fact.traceable) = .ok allowed) {token : String} (ht : token ∈ allowed.flatten) :
    ∃ fact ∈ facts, ∃ tokens, numericTokens fact.traceable = .ok tokens ∧ token ∈ tokens := by
  induction facts generalizing allowed with
  | nil =>
    rw [List.mapM_nil] at h
    cases h
    nomatch ht
  | cons fact facts ih =>
    rw [List.mapM_cons] at h
    obtain ⟨tokens, htokens, h⟩ := bind_eq_ok.mp h
    obtain ⟨rest, hrest, h⟩ := bind_eq_ok.mp h
    cases h
    rcases List.mem_append.mp ht with hfirst | hlater
    · exact ⟨fact, List.mem_cons_self, tokens, htokens, hfirst⟩
    · obtain ⟨fact', hfact', hfound⟩ := ih hrest hlater
      exact ⟨fact', List.mem_cons_of_mem _ hfact', hfound⟩

/-- An accepted interpretation has accepted statements. -/
theorem validateStatement_of_accepted {interpretation : AnalysisInterpretation} {evidence : AnalysisEvidenceBundle}
    (h : (validateAnalysisInterpretation interpretation evidence).isOk = true) {statement : AnalysisStatement}
    (hs : statement ∈ interpretation.statements) : validateStatement evidence statement = .ok () := by
  unfold validateAnalysisInterpretation at h
  cases hall : interpretation.statements.mapM (validateStatement evidence) with
  | error e =>
    rw [hall] at h
    nomatch h
  | ok units => exact (mapM_eq_ok (g := fun _ => ()) (fun _ _ _ => rfl) hall).2 statement hs

end EvidenceAux

open EvidenceAux

/-- The numeric gate. Of an interpretation that is accepted, where every numeral of a statement stands clear of letters and underscores,
has no thousands separators and at most 28 significant digits, and every numeral of a cited fact is such a numeral too or is read not at
all (no separators, at most 28 significant digits, and, where a letter or an underscore is next to it, no fraction and no digit beyond
ASCII): every numeral of a statement equals one in the traceable fields of a fact that the statement cites. -/
theorem numeric_gate_sound (interpretation : AnalysisInterpretation) (evidence : AnalysisEvidenceBundle)
    (haccepted : (validateAnalysisInterpretation interpretation evidence).isOk = true)
    (hplain : ∀ statement ∈ interpretation.statements, ∀ m ∈ numerals statement.text.val, PlainNumeral m)
    (hsource : ∀ statement ∈ interpretation.statements, ∀ fact ∈ evidence.cited statement, ∀ m ∈ numerals fact.traceable,
      SourceNumeral m) :
    ∀ statement ∈ interpretation.statements, Traced evidence statement := by
  intro statement hs m hm
  obtain ⟨allowed, actual, hallowed, hactual, hsubset⟩ := validateStatement_eq_ok (validateStatement_of_accepted haccepted hs)
  obtain ⟨token, htoken, hspelled⟩ := tokens_of_plain statement.text.property.2 (hplain statement hs) hactual m hm
  obtain ⟨fact, hfact, tokens, htokens, hin⟩ := exists_fact_of_token hallowed (hsubset token htoken)
  obtain ⟨m', hm', hspelled'⟩ := tokens_of_source (hsource statement hs fact hfact) htokens token hin
  exact ⟨fact, hfact, m', hm', hspelled'.symm.trans hspelled⟩

/-! ## Two statements about one fact -/

/-- The identity of the fact. -/
def revenueFactId : Sha256 := ⟨"3f79bb7b435b05321651daefd374cdc681dc06faa65e374e38337b88ca046dea", isSha256_ofList rfl⟩

/-- A revenue of 93.2. -/
def revenueFact : AnalysisEvidenceFact := ⟨revenueFactId, some (.float "93.2"), some ⟨"CNY", by decide⟩, none, none, none⟩

def revenueEvidence : AnalysisEvidenceBundle := ⟨[revenueFact], by decide, by decide⟩

/-- An interpretation whose one statement cites that fact. -/
def stating (text : BoundedText 1 2048) : AnalysisInterpretation :=
  ⟨⟨text, [revenueFactId], by decide, by decide⟩, [], [], by decide, by decide⟩

/-- The number, with a zero more. -/
def totalText : BoundedText 1 2048 := ⟨"revenue was 93.20 in total", by decide⟩

/-- The tokens and the numerals of the traceable fields of the fact. -/
theorem revenueFact_read : numericTokens revenueFact.traceable = .ok ["93.2"] ∧
    numerals revenueFact.traceable = [⟨some ':', ['9', '3'], false, ['2'], some (Char.ofNat 125)⟩] := by
  have htext : revenueFact.traceable =
    "\x7b\"data_as_of\":null,\"observed_at\":null,\"time_range\":null,\"unit\":\"CNY\",\"value\":93.2\x7d" := by decide +kernel
  have hchars := (congrArg String.toList htext).trans String.toList_ofList
  constructor
  · rw [numericTokens, hchars]
    decide +kernel
  · rw [numerals, hchars]
    decide +kernel

/-- A statement whose facts are known and prove its tokens is accepted. -/
theorem validateStatement_of {evidence : AnalysisEvidenceBundle} {statement : AnalysisStatement} (allowed : List (List String))
    {actual : List String} (hknown : (statement.factIds.any fun factId => (evidence.fact? factId).isNone) = false)
    (hallowed : ((evidence.cited statement).mapM fun fact => numericTokens fact.traceable) = .ok allowed)
    (hactual : numericTokens statement.text.val = .ok actual) (hsubset : ∀ token ∈ actual, token ∈ allowed.flatten) :
    validateStatement evidence statement = .ok () := by
  unfold validateStatement
  rw [hknown, if_neg Bool.false_ne_true]
  exact bind_eq_ok.mpr ⟨allowed, hallowed, bind_eq_ok.mpr ⟨actual, hactual, if_neg (not_not.mpr hsubset)⟩⟩

/-- A statement whose one number is the revenue is accepted. -/
theorem stating_accepted {text : BoundedText 1 2048} (htext : numericTokens text.val = .ok ["93.2"]) :
    (validateAnalysisInterpretation (stating text) revenueEvidence).isOk = true := by
  have hfact : revenueEvidence.fact? revenueFactId = some revenueFact := by
    simp only [AnalysisEvidenceBundle.fact?, revenueEvidence, revenueFact, List.find?_cons, decide_true]
  have hcited : revenueEvidence.cited (stating text).summary = [revenueFact] := by
    simp only [AnalysisEvidenceBundle.cited, stating, List.filterMap_cons, hfact, List.filterMap_nil]
  have hstatement : validateStatement revenueEvidence (stating text).summary = .ok () := by
    refine validateStatement_of [["93.2"]] ?_ ?_ htext (by simp)
    · simp only [stating, List.any_cons, hfact, Option.isNone_some, List.any_nil, Bool.or_false]
    · rw [hcited, List.mapM_cons, revenueFact_read.1]
      rfl
  have hall : (stating text).statements.mapM (validateStatement revenueEvidence) = .ok [()] := by
    change [(stating text).summary].mapM (validateStatement revenueEvidence) = _
    rw [List.mapM_cons, hstatement]
    rfl
  rw [validateAnalysisInterpretation, hall]
  rfl

theorem numeric_gate_sound_total :
    (validateAnalysisInterpretation (stating totalText) revenueEvidence).isOk = true ∧
      ∀ statement ∈ (stating totalText).statements, Traced revenueEvidence statement := by
  have hchars : totalText.val.toList = _ := String.toList_ofList
  have haccepted : (validateAnalysisInterpretation (stating totalText) revenueEvidence).isOk = true := by
    refine stating_accepted ?_
    rw [numericTokens, hchars]
    decide +kernel
  have htext : numerals totalText.val = [⟨some ' ', ['9', '3'], false, ['2', '0'], some ' '⟩] := by
    rw [numerals, hchars]
    decide +kernel
  have hfits : ∀ q : ℚ, q = 466 / 5 → Fits .default q := by
    rintro q rfl
    exact ⟨932, -1, by norm_num, by decide, by decide, by decide⟩
  refine ⟨haccepted, numeric_gate_sound _ revenueEvidence haccepted (fun statement hs m hm => ?_) fun statement hs fact hf m hm => ?_⟩
  · cases List.mem_singleton.mp hs
    have hm' : m ∈ numerals totalText.val := hm
    rw [htext] at hm'
    cases List.mem_singleton.mp hm'
    exact ⟨rfl, ⟨by decide, by decide⟩, hfits _ (by decide +kernel)⟩
  · cases List.mem_singleton.mp hs
    have hf' : fact ∈ [revenueFact] := hf
    cases List.mem_singleton.mp hf'
    rw [revenueFact_read.2] at hm
    cases List.mem_singleton.mp hm
    exact ⟨⟨rfl, .inl ⟨by decide, by decide⟩⟩, hfits _ (by decide +kernel)⟩

/-- A number with a unit next to it. -/
def unitText : BoundedText 1 2048 := ⟨"revenue was 93.2, up by 500k", by decide⟩

/-- A numeral with a letter next to it is passed over: no fact has the number, and the statement is accepted. -/
theorem numeric_gate_unit :
    (validateAnalysisInterpretation (stating unitText) revenueEvidence).isOk = true ∧
      ¬ ∀ statement ∈ (stating unitText).statements, Traced revenueEvidence statement := by
  have hchars : unitText.val.toList = _ := String.toList_ofList
  have htext : numerals unitText.val =
      [⟨some ' ', ['9', '3'], false, ['2'], some ','⟩, ⟨some ' ', ['5', '0', '0'], false, [], some 'k'⟩] := by
    rw [numerals, hchars]
    decide +kernel
  refine ⟨stating_accepted ?_, fun htraced => ?_⟩
  · rw [numericTokens, hchars]
    decide +kernel
  · have hm : (⟨some ' ', ['5', '0', '0'], false, [], some 'k'⟩ : Numeral) ∈ numerals unitText.val := by
      rw [htext]
      exact List.mem_cons_of_mem _ List.mem_cons_self
    obtain ⟨fact, hfact, m, hm', hvalue⟩ := htraced _ List.mem_cons_self _ hm
    cases List.mem_singleton.mp (hfact : fact ∈ [revenueFact])
    rw [revenueFact_read.2] at hm'
    cases List.mem_singleton.mp hm'
    exact absurd hvalue (by decide +kernel)

end Nl2Sql
