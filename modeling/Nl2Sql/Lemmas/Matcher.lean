import Nl2Sql.Planner.Proposal

/-!
# Lemmas about the matcher

`detect_metric_candidates` keeps the longest match so far and the assets that reach it. What it returns is said here without the loop: of
the candidates of a release, those whose longest match is not exceeded by another's and is not zero.
-/

namespace Nl2Sql

open Py

variable (U : UnicodeForms)

/-- The longest match of a candidate with the words of a question. -/
def longestMatch (question : String) (candidate : MetricCandidate) : Nat :=
  ((words (U.normalize question)).map fun token => matchLength U token candidate).foldr max 0

/-- The candidate a document gives. -/
def candidateOf (document : SemanticDocument) (contract : MetricContract) : MetricCandidate :=
  ⟨document.documentId, contract.metricKey.val, contract.displayName, contract⟩

/-- The assets of a document are a candidate of the release. -/
def IsCandidate (parseContract : String → Option MetricContract) (permittedAssetIds : Option (List String))
    (document : SemanticDocument) : Prop :=
  document.metadata.get? "asset_type" = some "metric" ∧ document.metadata.get? "status" = some "active" ∧
    (∀ ids ∈ permittedAssetIds, document.documentId ∈ ids) ∧ contractOf? parseContract document ≠ none

namespace MatcherAux

variable {U} {parseContract : String → Option MetricContract} {permitted : Option (List String)}

/-! ## The candidates of a release -/

theorem addCandidate_eq (candidates : List MetricCandidate) (document : SemanticDocument)
    (hnew : document.documentId ∉ candidates.map (·.assetId)) :
    (∃ contract, IsCandidate parseContract permitted document ∧ contractOf? parseContract document = some contract ∧
        addCandidate parseContract permitted candidates document = candidates ++ [candidateOf document contract]) ∨
      ¬IsCandidate parseContract permitted document ∧ addCandidate parseContract permitted candidates document = candidates := by
  unfold addCandidate
  split
  · rename_i hrefused
    right
    refine ⟨?_, rfl⟩
    rintro ⟨htype, hstatus, hpermitted, -⟩
    rcases hrefused with h | h | ⟨ids, hids, h⟩ | h
    · exact h htype
    · exact h hstatus
    · exact h (hpermitted ids hids)
    · exact hnew h
  · rename_i hpassed
    simp only [not_or, not_exists, not_and, not_not] at hpassed
    split
    · rename_i hnone
      exact .inr ⟨fun h => h.2.2.2 hnone, rfl⟩
    · rename_i contract hcontract
      left
      refine ⟨contract, ⟨hpassed.1, hpassed.2.1, hpassed.2.2.1, ?_⟩, hcontract, rfl⟩
      rw [hcontract]
      exact Option.some_ne_none contract

/-- The candidates of documents of different ids, after those so far: each comes of a document, and each document that is one gives one. -/
theorem mem_foldl_addCandidate {candidate : MetricCandidate} (documents : List SemanticDocument) (candidates : List MetricCandidate)
    (hnodup : (candidates.map (·.assetId) ++ documents.map (·.documentId)).Nodup) :
    candidate ∈ documents.foldl (addCandidate parseContract permitted) candidates ↔
      candidate ∈ candidates ∨ ∃ document ∈ documents, ∃ contract, IsCandidate parseContract permitted document ∧
        contractOf? parseContract document = some contract ∧ candidate = candidateOf document contract := by
  induction documents generalizing candidates with
  | nil => simp
  | cons document documents ih =>
    rw [List.foldl_cons]
    rw [List.map_cons, List.nodup_append] at hnodup
    obtain ⟨hcandidates, hdocuments, hapart⟩ := hnodup
    obtain ⟨hdocument, hrest⟩ := List.nodup_cons.mp hdocuments
    have hnew : document.documentId ∉ candidates.map (·.assetId) := fun h => hapart _ h _ List.mem_cons_self rfl
    have hapart' : ∀ a ∈ candidates.map (·.assetId), ∀ b ∈ documents.map (·.documentId), a ≠ b :=
      fun a ha b hb => hapart a ha b (List.mem_cons_of_mem _ hb)
    rcases addCandidate_eq candidates document hnew with ⟨contract, hcandidate, hcontract, heq⟩ | ⟨hcandidate, heq⟩
    · rw [heq, ih]
      · simp only [List.mem_append, List.mem_cons, List.not_mem_nil, or_false, exists_eq_or_imp, hcandidate, hcontract, true_and,
          Option.some.injEq, exists_eq_left', or_assoc]
      · rw [List.map_append, List.append_assoc]
        refine List.nodup_append.mpr ⟨hcandidates, List.nodup_cons.mpr ⟨hdocument, hrest⟩, ?_⟩
        exact hapart
    · rw [heq, ih]
      · simp only [List.mem_cons, exists_eq_or_imp, hcandidate, false_and, exists_false, false_or]
      · exact List.nodup_append.mpr ⟨hcandidates, hrest, hapart'⟩

/-- The candidates of a release whose documents have different ids. -/
theorem mem_releaseCandidates {release : SemanticRelease} (hunique : (release.documents.map (·.documentId)).Nodup)
    {candidate : MetricCandidate} :
    candidate ∈ releaseCandidates parseContract release permitted ↔
      ∃ document ∈ release.documents, ∃ contract, IsCandidate parseContract permitted document ∧
        contractOf? parseContract document = some contract ∧ candidate = candidateOf document contract := by
  unfold releaseCandidates
  rw [List.mem_insertionSort, mem_foldl_addCandidate release.documents [] hunique]
  simp

/-- No asset is a candidate twice. -/
theorem nodup_foldl_addCandidate (documents : List SemanticDocument) (candidates : List MetricCandidate)
    (h : (candidates.map (·.assetId)).Nodup) :
    ((documents.foldl (addCandidate parseContract permitted) candidates).map (·.assetId)).Nodup := by
  induction documents generalizing candidates with
  | nil => exact h
  | cons document documents ih =>
    rw [List.foldl_cons]
    apply ih
    by_cases hnew : document.documentId ∈ candidates.map (·.assetId)
    · have heq : addCandidate parseContract permitted candidates document = candidates := if_pos (.inr (.inr (.inr hnew)))
      rw [heq]
      exact h
    · rcases @addCandidate_eq parseContract permitted candidates document hnew with ⟨contract, -, -, heq⟩ | ⟨-, heq⟩
      · rw [heq, List.map_append]
        refine List.Nodup.append h (List.nodup_singleton _) ?_
        intro assetId hmem hasset
        have hasset : assetId = document.documentId := List.mem_singleton.mp hasset
        exact hnew (hasset ▸ hmem)
      · rw [heq]
        exact h

theorem nodup_releaseCandidates (parseContract : String → Option MetricContract) (permitted : Option (List String))
    (release : SemanticRelease) :
    ((releaseCandidates parseContract release permitted).map (·.assetId)).Nodup := by
  unfold releaseCandidates
  exact ((List.perm_insertionSort _ _).map _).nodup_iff.mpr (nodup_foldl_addCandidate release.documents [] List.nodup_nil)

/-! ## The longest match -/

theorem le_foldr_max {values : List Nat} {n : Nat} (h : n ∈ values) : n ≤ values.foldr max 0 := by
  induction values with
  | nil => exact absurd h List.not_mem_nil
  | cons value values ih =>
    rw [List.foldr_cons]
    rcases List.mem_cons.mp h with rfl | h
    · exact le_max_left _ _
    · exact (ih h).trans (le_max_right _ _)

theorem foldr_max_mem {values : List Nat} (h : 0 < values.foldr max 0) : values.foldr max 0 ∈ values := by
  induction values with
  | nil => exact absurd h (lt_irrefl 0)
  | cons value values ih =>
    rw [List.foldr_cons] at h ⊢
    rcases le_total value (values.foldr max 0) with hle | hle
    · rw [max_eq_right hle] at h ⊢
      exact List.mem_cons_of_mem _ (ih h)
    · rw [max_eq_left hle]
      exact List.mem_cons_self

theorem matchLength_le_longest {question token : String} (h : token ∈ words (U.normalize question)) (candidate : MetricCandidate) :
    matchLength U token candidate ≤ longestMatch U question candidate :=
  le_foldr_max (List.mem_map.mpr ⟨token, h, rfl⟩)

theorem longest_attained {question : String} {candidate : MetricCandidate} (h : 0 < longestMatch U question candidate) :
    ∃ token ∈ words (U.normalize question), matchLength U token candidate = longestMatch U question candidate :=
  List.mem_map.mp (foldr_max_mem h)

/-! ## The loop -/

/-- What the loop knows after some comparisons: its length is exceeded by none of them, and its assets are those that reach it. -/
structure Best (U : UnicodeForms) (seen : List (String × MetricCandidate)) (best : Nat × List String) : Prop where
  le : ∀ pair ∈ seen, matchLength U pair.1 pair.2 ≤ best.1
  attained : best.1 = 0 ∨ ∃ pair ∈ seen, matchLength U pair.1 pair.2 = best.1
  winners : ∀ assetId, assetId ∈ best.2 ↔ 0 < best.1 ∧ ∃ pair ∈ seen, matchLength U pair.1 pair.2 = best.1 ∧ pair.2.assetId = assetId

theorem Best.nil : Best U [] (0, []) where
  le pair h := absurd h List.not_mem_nil
  attained := .inl rfl
  winners assetId := by simp only [List.not_mem_nil, false_and, exists_false, and_false]

/-- One comparison keeps what the loop knows. -/
theorem Best.improve {seen : List (String × MetricCandidate)} {best : Nat × List String} (h : Best U seen best) (token : String)
    (candidate : MetricCandidate) : Best U (seen ++ [(token, candidate)]) (improveMatch U token best candidate) := by
  have hother (n : Nat) : (∃ pair ∈ seen ++ [(token, candidate)], matchLength U pair.1 pair.2 = n) ↔
      (∃ pair ∈ seen, matchLength U pair.1 pair.2 = n) ∨ matchLength U token candidate = n := by
    simp [or_and_right, exists_or]
  have hwinner (n : Nat) (assetId : String) :
      (∃ pair ∈ seen ++ [(token, candidate)], matchLength U pair.1 pair.2 = n ∧ pair.2.assetId = assetId) ↔
        (∃ pair ∈ seen, matchLength U pair.1 pair.2 = n ∧ pair.2.assetId = assetId) ∨
          matchLength U token candidate = n ∧ candidate.assetId = assetId := by
    simp [or_and_right, exists_or]
  have hall (n : Nat) (hseen : ∀ pair ∈ seen, matchLength U pair.1 pair.2 ≤ n) (hlast : matchLength U token candidate ≤ n) :
      ∀ pair ∈ seen ++ [(token, candidate)], matchLength U pair.1 pair.2 ≤ n := by
    intro pair hpair
    rcases List.mem_append.mp hpair with hpair | hpair
    · exact hseen pair hpair
    · rw [List.mem_singleton.mp hpair]
      exact hlast
  unfold improveMatch
  simp only
  split
  · rename_i hzero
    refine ⟨hall _ h.le (by omega), ?_, fun assetId => ?_⟩
    · rw [hother]
      exact h.attained.imp_right .inl
    · rw [hwinner, h.winners]
      constructor
      · exact fun ⟨hpos, hreach⟩ => ⟨hpos, .inl hreach⟩
      · rintro ⟨hpos, hreach | ⟨hlast, -⟩⟩
        · exact ⟨hpos, hreach⟩
        · omega
  · rename_i hpos
    split
    · rename_i hlonger
      refine ⟨hall _ (fun pair hpair => (h.le pair hpair).trans hlonger.le) le_rfl, .inr ((hother _).mpr (.inr rfl)), fun assetId => ?_⟩
      rw [hwinner]
      constructor
      · intro hmem
        exact ⟨by omega, .inr ⟨rfl, (List.mem_singleton.mp hmem).symm⟩⟩
      · rintro ⟨-, ⟨pair, hpair, hreach, -⟩ | ⟨-, hasset⟩⟩
        · have hle := h.le pair hpair
          omega
        · exact List.mem_singleton.mpr hasset.symm
    · rename_i hshorter
      split
      · rename_i htie
        refine ⟨hall _ h.le htie.le, .inr ((hother _).mpr (.inr htie)), fun assetId => ?_⟩
        rw [hwinner, List.mem_cons, h.winners]
        constructor
        · rintro (hasset | ⟨hbest, hreach⟩)
          · exact ⟨by omega, .inr ⟨htie, hasset.symm⟩⟩
          · exact ⟨hbest, .inl hreach⟩
        · rintro ⟨hbest, hreach | ⟨-, hasset⟩⟩
          · exact .inr ⟨hbest, hreach⟩
          · exact .inl hasset.symm
      · rename_i hneither
        refine ⟨hall _ h.le (by omega), ?_, fun assetId => ?_⟩
        · rw [hother]
          exact h.attained.imp_right .inl
        · rw [hwinner, h.winners]
          constructor
          · exact fun ⟨hbest, hreach⟩ => ⟨hbest, .inl hreach⟩
          · rintro ⟨hbest, hreach | ⟨hlast, -⟩⟩
            · exact ⟨hbest, hreach⟩
            · exact absurd hlast hneither

theorem Best.fold {seen : List (String × MetricCandidate)} {best : Nat × List String} (h : Best U seen best)
    (pairs : List (String × MetricCandidate)) :
    Best U (seen ++ pairs) (pairs.foldl (fun best pair => improveMatch U pair.1 best pair.2) best) := by
  induction pairs generalizing seen best with
  | nil =>
    rw [List.append_nil]
    exact h
  | cons pair pairs ih =>
    have hnext := ih (h.improve pair.1 pair.2)
    rw [List.append_assoc] at hnext
    exact hnext

/-- The comparisons of a question, in the order of the two loops. -/
def comparisons (tokens : List String) (candidates : List MetricCandidate) : List (String × MetricCandidate) :=
  tokens.flatMap fun token => candidates.map fun candidate => (token, candidate)

theorem mem_comparisons {tokens : List String} {candidates : List MetricCandidate} {pair : String × MetricCandidate} :
    pair ∈ comparisons tokens candidates ↔ pair.1 ∈ tokens ∧ pair.2 ∈ candidates := by
  obtain ⟨token, candidate⟩ := pair
  unfold comparisons
  simp only [List.mem_flatMap, List.mem_map, Prod.mk.injEq]
  constructor
  · rintro ⟨token', htoken, candidate', hcandidate, rfl, rfl⟩
    exact ⟨htoken, hcandidate⟩
  · rintro ⟨htoken, hcandidate⟩
    exact ⟨token, htoken, candidate, hcandidate, rfl, rfl⟩

theorem best_of_loops (tokens : List String) (candidates : List MetricCandidate) :
    Best U (comparisons tokens candidates)
      (tokens.foldl (fun best token => candidates.foldl (improveMatch U token) best) (0, [])) := by
  have h := Best.nil (U := U) |>.fold (comparisons tokens candidates)
  rw [List.nil_append] at h
  unfold comparisons at h ⊢
  simp only [List.foldl_flatMap, List.foldl_map] at h
  exact h

/-! ## What is detected -/

/-- A candidate is detected when no candidate has a longer match, and it has one. -/
theorem mem_detect {question : String} {release : SemanticRelease} {candidate : MetricCandidate} :
    candidate ∈ detectMetricCandidates U parseContract question release permitted ↔
      candidate ∈ releaseCandidates parseContract release permitted ∧ 0 < longestMatch U question candidate ∧
        ∀ rival ∈ releaseCandidates parseContract release permitted, longestMatch U question rival ≤ longestMatch U question candidate := by
  have hbest := best_of_loops (U := U) (words (U.normalize question)) (releaseCandidates parseContract release permitted)
  have hunique := nodup_releaseCandidates parseContract permitted release
  unfold detectMetricCandidates
  simp only
  generalize (words (U.normalize question)).foldl _ (0, []) = best at hbest
  have hle : ∀ rival ∈ releaseCandidates parseContract release permitted, longestMatch U question rival ≤ best.1 := by
    intro rival hrival
    by_contra hlt
    have hpos : 0 < longestMatch U question rival := by omega
    obtain ⟨token, htoken, hreach⟩ := longest_attained hpos
    have hle := hbest.le (token, rival) (mem_comparisons.mpr ⟨htoken, hrival⟩)
    simp only at hle
    omega
  split
  · rename_i hzero
    refine iff_of_false List.not_mem_nil ?_
    rintro ⟨hmem, hpos, -⟩
    have := hle candidate hmem
    omega
  · rename_i hpos
    rw [List.mem_filter, decide_eq_true_eq, hbest.winners]
    refine and_congr_right fun hmem => ?_
    constructor
    · rintro ⟨-, ⟨token, other⟩, hpair, hreach, hasset⟩
      obtain ⟨htoken, hother⟩ := mem_comparisons.mp hpair
      have hsame : other = candidate := List.inj_on_of_nodup_map hunique hother hmem hasset
      subst hsame
      have hlongest : matchLength U token other ≤ longestMatch U question other := matchLength_le_longest htoken other
      have hreach : matchLength U token other = best.1 := hreach
      exact ⟨by omega, fun rival hrival => (hle rival hrival).trans (by omega)⟩
    · rintro ⟨hlong, hmax⟩
      have hzero : best.1 ≠ 0 := hpos
      obtain ⟨⟨token, other⟩, hpair, hreach⟩ := hbest.attained.resolve_left hzero
      obtain ⟨htoken, hother⟩ := mem_comparisons.mp hpair
      have hother : matchLength U token other ≤ longestMatch U question candidate :=
        (matchLength_le_longest htoken other).trans (hmax other hother)
      have hcandidate := hle candidate hmem
      obtain ⟨token', htoken', hreach'⟩ := longest_attained hlong
      have hreach : matchLength U token other = best.1 := hreach
      exact ⟨by omega, (token', candidate), mem_comparisons.mpr ⟨htoken', hmem⟩, by simp only; omega, rfl⟩

theorem nodup_detect (question : String) (release : SemanticRelease) :
    (detectMetricCandidates U parseContract question release permitted).Nodup := by
  have hcandidates := List.Nodup.of_map _ (nodup_releaseCandidates parseContract permitted release)
  unfold detectMetricCandidates
  simp only
  split
  · exact List.nodup_nil
  · exact hcandidates.filter _

/-- A list without repetition is of one element when it has that element and no other. -/
theorem eq_singleton_iff {α : Type} {l : List α} (hl : l.Nodup) {a : α} : l = [a] ↔ a ∈ l ∧ ∀ b ∈ l, b = a := by
  constructor
  · rintro rfl
    exact ⟨List.mem_singleton_self a, fun b hb => List.mem_singleton.mp hb⟩
  · rintro ⟨ha, hall⟩
    cases l with
    | nil => exact absurd ha List.not_mem_nil
    | cons b l =>
      have hb := hall b List.mem_cons_self
      cases l with
      | nil => rw [hb]
      | cons c l =>
        have hc := hall c (List.mem_cons_of_mem _ List.mem_cons_self)
        rw [hb, hc] at hl
        exact absurd List.mem_cons_self (List.nodup_cons.mp hl).1

/-- One metric is detected when its match is longer than that of every other candidate. -/
theorem detect_eq_singleton {question : String} {release : SemanticRelease} {candidate : MetricCandidate} :
    detectMetricCandidates U parseContract question release permitted = [candidate] ↔
      candidate ∈ releaseCandidates parseContract release permitted ∧ 0 < longestMatch U question candidate ∧
        ∀ rival ∈ releaseCandidates parseContract release permitted, rival ≠ candidate →
          longestMatch U question rival < longestMatch U question candidate := by
  rw [eq_singleton_iff (nodup_detect question release), mem_detect]
  constructor
  · rintro ⟨⟨hmem, hpos, hmax⟩, honly⟩
    refine ⟨hmem, hpos, fun rival hrival hne => lt_of_le_of_ne (hmax rival hrival) fun htie => hne (honly rival ?_)⟩
    exact mem_detect.mpr ⟨hrival, hpos.trans_eq htie.symm, fun other hother => (hmax other hother).trans_eq htie.symm⟩
  · rintro ⟨hmem, hpos, hlonger⟩
    refine ⟨⟨hmem, hpos, fun rival hrival => ?_⟩, fun rival hrival => ?_⟩
    · by_cases hsame : rival = candidate
      · rw [hsame]
      · exact (hlonger rival hrival hsame).le
    · obtain ⟨hrival, -, hmax⟩ := mem_detect.mp hrival
      by_contra hne
      exact absurd (hlonger rival hrival hne) (hmax candidate hmem).not_gt

end MatcherAux

end Nl2Sql
