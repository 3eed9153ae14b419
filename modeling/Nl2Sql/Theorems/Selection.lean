import Nl2Sql.Candidate.Selection

/-!
# The selected candidate

Which candidate is selected, and why none is, does not depend on the order the candidates came in; and a selected one has passed every
gate, agrees with every other that passed, and ranks before it.
-/

namespace Nl2Sql

open Py

namespace SelectionAux

/-! ## Values that agree -/

/-- A set of the values of a list has more than one element exactly where two of them differ. -/
theorem not_one_lt_fromKeys_iff {α : Type} [DecidableEq α] {values : List α} :
    ¬1 < (fromKeys values).length ↔ ∀ a ∈ values, ∀ b ∈ values, a = b := by
  constructor
  · intro h a ha b hb
    rw [← mem_fromKeys] at ha hb
    match hkeys : fromKeys values with
    | [] =>
      rw [hkeys] at ha
      exact absurd ha List.not_mem_nil
    | [c] =>
      rw [hkeys] at ha hb
      rw [List.mem_singleton.mp ha, List.mem_singleton.mp hb]
    | c :: d :: rest =>
      rw [hkeys] at h
      exact absurd (by simp) h
  · intro h hlength
    match hkeys : fromKeys values with
    | [] =>
      rw [hkeys] at hlength
      nomatch hlength
    | [c] =>
      rw [hkeys] at hlength
      exact absurd hlength (Nat.lt_irrefl 1)
    | c :: d :: rest =>
      have hnodup := fromKeys_nodup values
      have hc : c ∈ values := (mem_fromKeys _ _).mp (by rw [hkeys]; simp)
      have hd : d ∈ values := (mem_fromKeys _ _).mp (by rw [hkeys]; simp)
      rw [hkeys, h c hc d hd] at hnodup
      simp at hnodup

/-- Whether the values of a list differ does not depend on its order. -/
theorem one_lt_fromKeys_congr {α : Type} [DecidableEq α] {values values' : List α} (h : values.Perm values') :
    1 < (fromKeys values).length ↔ 1 < (fromKeys values').length := by
  rw [← not_iff_not, not_one_lt_fromKeys_iff, not_one_lt_fromKeys_iff]
  simp only [h.mem_iff]

/-! ## The gates -/

section Verify

variable {P : Type} {V : CandidateVerifier P}

/-- Gates that all pass are those of the order, each passed, and the SQL is as its metadata say where that gate is among them. -/
theorem gateLoop_passed {c : Candidate P} {names : List GateName} {outcomes : List GateOutcome}
    (h : (V.gateLoop c names outcomes).2 = none) : outcomes = names.map (⟨·, true⟩) ∧ (V.gateLoop c names outcomes).1 = outcomes ∧
      (.sql ∈ names → V.sqlFailure c = none) := by
  induction names generalizing outcomes with
  | nil =>
    cases outcomes with
    | nil => exact ⟨rfl, rfl, fun h => absurd h List.not_mem_nil⟩
    | cons outcome outcomes => nomatch h
  | cons name names ih =>
    cases outcomes with
    | nil => nomatch h
    | cons outcome outcomes =>
      unfold CandidateVerifier.gateLoop at h ⊢
      by_cases hgate : outcome.gate = name
      · by_cases hpassed : outcome.passed = false
        · simp [hgate, hpassed] at h
        · cases hsql : (if name = .sql then V.sqlFailure c else none) with
          | some code => simp [hgate, hpassed, hsql] at h
          | none =>
            simp only [hgate, hpassed, hsql, ne_eq, not_true_eq_false, if_false] at h ⊢
            obtain ⟨houtcomes, hgone, hrest⟩ := ih h
            refine ⟨?_, by simp [hgone], fun hmem => ?_⟩
            · rw [List.map_cons, ← houtcomes, ← hgate, ← Bool.eq_true_of_not_eq_false hpassed]
            · rcases List.mem_cons.mp hmem with heq | hmem
              · rwa [if_pos heq.symm] at hsql
              · exact hrest hmem
      · simp [hgate] at h

/-- What a receipt without a failure says: all five gates passed in order, the metadata are those of the authority, and the gateway's
receipt matches the evidence. -/
structure Passed (V : CandidateVerifier P) (c : Candidate P) (receipt : CandidateReceipt) : Prop where
  authority : ∃ expected, V.expected.get? c.metadata.candidateId = some expected ∧ c.metadata = expected.metadata ∧
    ∃ digest, V.rowsetDigest c = .ok digest ∧ receipt.rowsetSha256 = some digest ∧ EvidenceMatches expected c digest
  metadata : receipt.metadata = c.metadata
  order : c.gates = gateOrder.map (⟨·, true⟩)
  gates : receipt.gates = c.gates
  sql : V.sqlFailure c = none

theorem verify_passed {argument : CandidateArgument P} (h : (V.verify argument).hardGatesPassed = true) :
    ∃ c, argument = .candidate c ∧ Passed V c (V.verify argument) := by
  rw [CandidateReceipt.hardGatesPassed, Option.isNone_iff_eq_none] at h
  cases argument with
  | malformed metadata => cases h
  | candidate c =>
    refine ⟨c, rfl, ?_⟩
    unfold CandidateVerifier.verify at h ⊢
    cases hexpected : V.expected.get? c.metadata.candidateId with
    | none =>
      simp only [hexpected] at h
      cases h
    | some expected =>
      simp only [hexpected] at h ⊢
      by_cases hmetadata : c.metadata = expected.metadata
      · rw [if_neg (not_not.mpr hmetadata)] at h ⊢
        unfold CandidateVerifier.verifyExpected at h ⊢
        cases hloop : (V.gateLoop c gateOrder c.gates).2 with
        | some code =>
          simp only [hloop] at h
          cases h
        | none =>
          simp only [hloop] at h ⊢
          cases hdigest : V.rowsetDigest c with
          | error message =>
            simp only [hdigest] at h
            cases h
          | ok digest =>
            simp only [hdigest] at h ⊢
            by_cases hevidence : EvidenceMatches expected c digest
            · rw [if_pos hevidence]
              obtain ⟨horder, hgates, hsql⟩ := gateLoop_passed hloop
              exact ⟨⟨expected, hexpected, hmetadata, digest, hdigest, rfl, hevidence⟩, rfl, horder, hgates, hsql (by decide)⟩
            · rw [if_neg hevidence] at h
              cases h
      · rw [if_pos hmetadata] at h
        cases h

end Verify

/-! ## The selection -/

section Select

variable {receipts receipts' : List CandidateReceipt}

/-- The ranks of receipts with different ids differ. -/
theorem rankingKeys_nodup (h : (receipts.map (·.metadata.candidateId)).Nodup) : (receipts.map rankingKey).Nodup := by
  refine List.Nodup.of_map (fun key => (ofLex (ofLex (ofLex (ofLex (ofLex key).2).2).2).2).2) ?_
  rw [List.map_map]
  have hval := h.map Subtype.val_injective
  rw [List.map_map] at hval
  exact hval

/-- What is decided, but for the receipts. -/
def CandidateDecision.verdict (d : CandidateDecision) : Option CandidateReceipt × Bool × String := (d.winner, d.needsHitl, d.reason)

/-- The verdict over receipts whose passed ones have different ids does not depend on their order. -/
theorem selectReceipt_perm (hperm : receipts.Perm receipts')
    (hids : ((receipts.filter (·.hardGatesPassed)).map (·.metadata.candidateId)).Nodup) :
    CandidateDecision.verdict (selectReceipt receipts) = CandidateDecision.verdict (selectReceipt receipts') := by
  have heligible := hperm.filter (·.hardGatesPassed)
  have hempty : (receipts.filter (·.hardGatesPassed)).isEmpty = (receipts'.filter (·.hardGatesPassed)).isEmpty := by
    rw [Bool.eq_iff_iff, List.isEmpty_iff_length_eq_zero, List.isEmpty_iff_length_eq_zero, heligible.length_eq]
  have hsignatures := one_lt_fromKeys_congr (heligible.map (·.metadata.semanticSignature))
  have hrowsets := one_lt_fromKeys_congr (heligible.map (·.rowsetSha256))
  have hsort := sortBy_eq_of_perm heligible (rankingKeys_nodup hids)
  unfold selectReceipt
  simp only [hempty, hsignatures, hrowsets, hsort]
  split_ifs <;> rfl

/-- A selected receipt passed, agrees with every other that passed, and ranks first. -/
theorem selectReceipt_winner {winner : CandidateReceipt} (h : (selectReceipt receipts).winner = some winner) :
    (selectReceipt receipts).receipts = receipts ∧ winner ∈ receipts.filter (·.hardGatesPassed) ∧
      ∀ receipt ∈ receipts.filter (·.hardGatesPassed), receipt.metadata.semanticSignature = winner.metadata.semanticSignature ∧
        receipt.rowsetSha256 = winner.rowsetSha256 ∧ rankingKey winner ≤ rankingKey receipt := by
  unfold selectReceipt at h ⊢
  by_cases hempty : (receipts.filter (·.hardGatesPassed)).isEmpty = true
  · simp only [hempty, if_true] at h
    nomatch h
  by_cases hsignatures : 1 < (fromKeys ((receipts.filter (·.hardGatesPassed)).map (·.metadata.semanticSignature))).length
  · simp only [hempty, hsignatures, if_true, Bool.false_eq_true, if_false] at h
    nomatch h
  by_cases hrowsets : 1 < (fromKeys ((receipts.filter (·.hardGatesPassed)).map (·.rowsetSha256))).length
  · simp only [hempty, hsignatures, hrowsets, if_true, Bool.false_eq_true, if_false] at h
    nomatch h
  simp only [hempty, hsignatures, hrowsets, Bool.false_eq_true, if_false] at h ⊢
  obtain ⟨rest, hsorted⟩ := List.head?_eq_some_iff.mp h
  have hwinner : winner ∈ receipts.filter (·.hardGatesPassed) := by
    rw [← mem_sortBy (f := rankingKey), hsorted]
    exact List.mem_cons_self
  refine ⟨?_, hwinner, fun receipt hreceipt => ⟨?_, ?_, ?_⟩⟩
  · trivial
  · exact not_one_lt_fromKeys_iff.mp hsignatures _ (List.mem_map_of_mem hreceipt) _ (List.mem_map_of_mem hwinner)
  · exact not_one_lt_fromKeys_iff.mp hrowsets _ (List.mem_map_of_mem hreceipt) _ (List.mem_map_of_mem hwinner)
  · have hpairwise := pairwise_sortBy rankingKey (receipts.filter (·.hardGatesPassed))
    rw [← mem_sortBy (f := rankingKey), hsorted] at hreceipt
    rw [hsorted] at hpairwise
    rcases List.mem_cons.mp hreceipt with rfl | hreceipt
    · exact le_rfl
    · exact (List.pairwise_cons.mp hpairwise).1 receipt hreceipt

/-- The receipts that pass within the join budget are those that passed before and are within it. -/
theorem filter_withinJoinBudget (budget : RouteBudget) (receipts : List CandidateReceipt) :
    (receipts.map (withinJoinBudget budget)).filter (·.hardGatesPassed) =
      receipts.filter fun r => r.hardGatesPassed && decide (r.metadata.joinHops ≤ budget.maxJoinHops) := by
  induction receipts with
  | nil => rfl
  | cons r receipts ih =>
    rw [List.map_cons, List.filter_cons, List.filter_cons, ih]
    by_cases hjoin : r.metadata.joinHops ≤ budget.maxJoinHops
    · simp only [withinJoinBudget, hjoin, if_true, decide_true, Bool.and_true]
    · simp [withinJoinBudget, hjoin, CandidateReceipt.hardGatesPassed]

/-- The receipts that pass within the join budget have different ids, if those of the candidates that are not malformed do. -/
theorem passedIds_nodup {budget : RouteBudget} (h : (validIds receipts).Nodup) :
    (((receipts.map (withinJoinBudget budget)).filter (·.hardGatesPassed)).map (·.metadata.candidateId)).Nodup := by
  rw [filter_withinJoinBudget]
  refine h.sublist (List.Sublist.map _ ?_)
  refine List.monotone_filter_right receipts fun r hr => ?_
  rw [Bool.and_eq_true, CandidateReceipt.hardGatesPassed, Option.isNone_iff_eq_none] at hr
  simp [hr.1]

/-- The ids that must differ are those of the other order in the other order. -/
theorem validIds_perm (hperm : receipts.Perm receipts') : (validIds receipts).Nodup ↔ (validIds receipts').Nodup :=
  ((hperm.filter _).map _).nodup_iff

/-- The receipts within the join budget that passed are verified candidates as they came. -/
theorem passed_within {P : Type} {V : CandidateVerifier P} {candidates : List (CandidateArgument P)} {budget : RouteBudget}
    {receipt : CandidateReceipt}
    (h : receipt ∈ ((candidates.map V.verify).map (withinJoinBudget budget)).filter (·.hardGatesPassed)) :
    ∃ c, .candidate c ∈ candidates ∧ receipt = V.verify (.candidate c) ∧ receipt.metadata.joinHops ≤ budget.maxJoinHops ∧
      Passed V c receipt := by
  rw [filter_withinJoinBudget] at h
  obtain ⟨hmem, hpassed⟩ := List.mem_filter.mp h
  rw [Bool.and_eq_true, decide_eq_true_iff] at hpassed
  obtain ⟨argument, hargument, rfl⟩ := List.mem_map.mp hmem
  obtain ⟨c, rfl, hc⟩ := verify_passed hpassed.1
  exact ⟨c, hargument, rfl, hpassed.2, hc⟩

end Select

end SelectionAux

open SelectionAux

/-- The status, the reason and the winner of a selection do not depend on the order of the candidates; and a winner is a verified
candidate that passed the gates, as its authority, its receipt and its rowset say, of which every other that passed has the semantic
signature and the rowset, and that ranks first among them. -/
theorem candidate_selection {P : Type} (V : CandidateVerifier P) (candidates : List (CandidateArgument P)) (route : RouteName)
    (budget : RouteBudget) (capacityAvailable : Bool) :
    (∀ candidates', candidates.Perm candidates' →
      (selectCandidate V candidates route budget capacityAvailable).status =
          (selectCandidate V candidates' route budget capacityAvailable).status ∧
        (selectCandidate V candidates route budget capacityAvailable).reason =
          (selectCandidate V candidates' route budget capacityAvailable).reason ∧
        (selectCandidate V candidates route budget capacityAvailable).winner =
          (selectCandidate V candidates' route budget capacityAvailable).winner) ∧
    ∀ winner, (selectCandidate V candidates route budget capacityAvailable).winner = some winner →
      (∃ c, .candidate c ∈ candidates ∧ winner = V.verify (.candidate c) ∧ Passed V c winner) ∧
      ∀ receipt ∈ (selectCandidate V candidates route budget capacityAvailable).receipts, receipt.hardGatesPassed = true →
        receipt.metadata.semanticSignature = winner.metadata.semanticSignature ∧ receipt.rowsetSha256 = winner.rowsetSha256 ∧
          rankingKey winner ≤ rankingKey receipt := by
  constructor
  · intro candidates' hperm
    have hreceipts : (candidates.map V.verify).Perm (candidates'.map V.verify) := hperm.map _
    have hverdict : CandidateDecision.verdict (selectCandidate V candidates route budget capacityAvailable) =
        CandidateDecision.verdict (selectCandidate V candidates' route budget capacityAvailable) := by
      unfold selectCandidate
      rw [← hperm.length_eq]
      cases candidateCapacity candidates.length route budget capacityAvailable with
      | some failure => rfl
      | none =>
        simp only [← validIds_perm hreceipts]
        by_cases hids : (validIds (candidates.map V.verify)).Nodup
        · rw [if_neg (not_not.mpr hids), if_neg (not_not.mpr hids)]
          exact selectReceipt_perm (hreceipts.map _) (passedIds_nodup hids)
        · rw [if_pos hids, if_pos hids]
          rfl
    obtain ⟨hwinner, hrest⟩ := Prod.ext_iff.mp hverdict
    obtain ⟨hhitl, hreason⟩ := Prod.ext_iff.mp hrest
    change (selectCandidate V candidates route budget capacityAvailable).winner = _ at hwinner
    change (selectCandidate V candidates route budget capacityAvailable).needsHitl = _ at hhitl
    refine ⟨?_, hreason, hwinner⟩
    unfold CandidateDecision.status
    rw [hwinner, hhitl]
    rfl
  · intro winner hwinner
    unfold selectCandidate at hwinner ⊢
    cases hcapacity : candidateCapacity candidates.length route budget capacityAvailable with
    | some failure =>
      rw [hcapacity] at hwinner
      nomatch hwinner
    | none =>
      simp only [hcapacity] at hwinner ⊢
      by_cases hids : (validIds (candidates.map V.verify)).Nodup
      · rw [if_neg (not_not.mpr hids)] at hwinner ⊢
        obtain ⟨hreceipts, hmem, hfirst⟩ := selectReceipt_winner hwinner
        rw [hreceipts]
        obtain ⟨c, hc, hverified, _, hpassed⟩ := passed_within hmem
        exact ⟨⟨c, hc, hverified, hpassed⟩, fun receipt hreceipt h => hfirst receipt (List.mem_filter.mpr ⟨hreceipt, h⟩)⟩
      · rw [if_pos hids] at hwinner
        nomatch hwinner

end Nl2Sql
