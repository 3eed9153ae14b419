import Nl2Sql.Lemmas.Matcher
import Nl2Sql.Lemmas.Planner
import Nl2Sql.Theorems.Planner
import Nl2Sql.Theorems.Visibility

/-!
# Ambiguity and the context budget

The evidence for a question is cut to the budget of its route before the planner reads it, and the planner looks for metrics among what is
left. So it may find one metric where the release has several that the question selects alike: it does exactly when the budget passes over
a metric that matches the question at least as long as every metric it keeps.
-/

namespace Nl2Sql

open Py

variable {K : Type} [Zero K] [Add K] [LinearOrder K] (weight : EvidenceSource → Nat → K)

namespace EvidencePolicy

variable (P : EvidencePolicy)

/-- The candidates among all the metrics that the identity sees. -/
def visibleCandidates (release : ActiveRelease) : List MetricCandidate :=
  releaseCandidates P.parsers.parse (P.visibleRelease release) P.permittedAssetIds

/-- The question as the planner reads it. -/
def plannerQuestion (question : String) : String := normalizeFrozenRealQuestion P.forms question

/-- The assets of the evidence that the budget of a route keeps for a question. -/
def keptAssets (route : RouteName) (question : String) (release : ActiveRelease) : List String :=
  (compileEvidence weight route (release.documents.map fun document => document.documentId)
    (P.retrievePermitted question (some release))).1.map fun item => item.evidenceId

/-- Every visible metric that the budget passes over is matched shorter than one that it keeps. -/
def RivalsKept (route : RouteName) (question : String) (release : ActiveRelease) : Prop :=
  ∀ dropped ∈ P.visibleCandidates release, dropped.assetId ∉ P.keptAssets weight route question release →
    ∃ kept ∈ P.visibleCandidates release, kept.assetId ∈ P.keptAssets weight route question release ∧
      longestMatch P.forms (P.plannerQuestion question) dropped < longestMatch P.forms (P.plannerQuestion question) kept

instance (route : RouteName) (question : String) (release : ActiveRelease) : Decidable (P.RivalsKept weight route question release) :=
  inferInstanceAs (Decidable (∀ dropped ∈ _, _ → ∃ kept ∈ _, _ ∧ _))

/-- The planner over the active release, with the Unicode forms and the contract parsers of the evidence. -/
def plannerOn (p : DeterministicQueryPlanProvider) (release : ActiveRelease) : DeterministicQueryPlanProvider :=
  { p with forms := P.forms, parseContract := P.parsers.parse, activeRelease := .release release.toSemanticRelease }

end EvidencePolicy

namespace AmbiguityAux

variable {P : EvidencePolicy} {release : ActiveRelease}

/-! ## Candidates -/

theorem documents_nodup (release : ActiveRelease) : (release.toSemanticRelease.documents.map (·.documentId)).Nodup := by
  have h := release.documents_unique
  unfold ActiveRelease.toSemanticRelease
  rw [List.map_map]
  exact h

theorem visible_nodup (P : EvidencePolicy) (release : ActiveRelease) :
    ((P.visibleRelease release).documents.map (·.documentId)).Nodup := by
  have hvisible : (P.visibleDocuments release).Sublist release.documents := List.filter_sublist
  have h := release.documents_unique.sublist (hvisible.map fun document => document.documentId)
  unfold EvidencePolicy.visibleRelease
  rw [List.map_map]
  exact h

/-- What the strict parser reads the other reads as well. -/
theorem contractOf?_parse {document : RegistryDocument} {contract : MetricContract} (h : P.metricContract document = some contract) :
    contractOf? P.parsers.parse document.toSemanticDocument = some contract := by
  unfold EvidencePolicy.metricContract contractOf? at h
  unfold contractOf? ContractParsers.parse
  simp only at h ⊢
  split at h
  · cases h
  · rename_i hblank
    rw [if_neg hblank]
    split at h
    · cases h
    · rename_i parsed hparsed
      rw [hparsed]
      exact h

/-- A candidate among the visible metrics is that of a visible document. -/
theorem mem_visibleCandidates {candidate : MetricCandidate} :
    candidate ∈ P.visibleCandidates release ↔ ∃ document ∈ P.visibleDocuments release, ∃ contract,
      P.metricContract document = some contract ∧ candidate = candidateOf document.toSemanticDocument contract := by
  unfold EvidencePolicy.visibleCandidates
  rw [MatcherAux.mem_releaseCandidates (visible_nodup P release)]
  constructor
  · rintro ⟨document', hdocument', contract, -, hcontract, rfl⟩
    obtain ⟨document, hdocument, rfl⟩ := List.mem_map.mp hdocument'
    obtain ⟨-, -, -, contract', hcontract', -⟩ := of_decide_eq_true (List.mem_filter.mp hdocument).2
    have hsame := (contractOf?_parse (Option.mem_def.mp hcontract')).symm.trans hcontract
    exact ⟨document, hdocument, contract, Option.some.inj hsame ▸ hcontract', rfl⟩
  · rintro ⟨document, hdocument, contract, hcontract, rfl⟩
    obtain ⟨htype, hstatus, hpermitted, -⟩ := of_decide_eq_true (List.mem_filter.mp hdocument).2
    have hparse := contractOf?_parse hcontract
    exact ⟨document.toSemanticDocument, List.mem_map.mpr ⟨document, hdocument, rfl⟩, contract,
      ⟨htype, hstatus, hpermitted, by rw [hparse]; exact Option.some_ne_none contract⟩, hparse, rfl⟩

/-- The candidates the planner finds are the visible ones that the context keeps. -/
theorem mem_keptCandidates {ids : List String} (hids : ∀ assetId ∈ ids, ∃ document ∈ P.shown release, assetId = document.documentId)
    {candidate : MetricCandidate} :
    candidate ∈ releaseCandidates P.parsers.parse release.toSemanticRelease (some ids) ↔
      candidate ∈ P.visibleCandidates release ∧ candidate.assetId ∈ ids := by
  rw [MatcherAux.mem_releaseCandidates (documents_nodup release), mem_visibleCandidates]
  constructor
  · rintro ⟨document', hdocument', contract, ⟨htype, hstatus, hpermitted, -⟩, hcontract, rfl⟩
    obtain ⟨document, hdocument, rfl⟩ := List.mem_map.mp hdocument'
    have hkept : document.documentId ∈ ids := hpermitted ids rfl
    obtain ⟨other, hother, hid⟩ := hids _ hkept
    have hsame := VisibilityAux.document_unique hdocument (VisibilityAux.mem_shown.mp hother).1 hid
    subst hsame
    have hvisible : P.metricVisible document := by
      by_contra hinvisible
      exact (VisibilityAux.mem_shown.mp hother).2 ⟨htype, hinvisible⟩
    have hmember : document ∈ P.visibleDocuments release := List.mem_filter.mpr ⟨hdocument, decide_eq_true hvisible⟩
    obtain ⟨-, -, -, contract', hcontract', -⟩ := hvisible
    have hsame := (contractOf?_parse (Option.mem_def.mp hcontract')).symm.trans hcontract
    exact ⟨⟨document, hmember, contract, Option.some.inj hsame ▸ hcontract', rfl⟩, hkept⟩
  · rintro ⟨⟨document, hdocument, contract, hcontract, rfl⟩, hkept⟩
    obtain ⟨hdocument, hvisible⟩ := List.mem_filter.mp hdocument
    obtain ⟨htype, hstatus, -, -⟩ := of_decide_eq_true hvisible
    have hparse := contractOf?_parse hcontract
    refine ⟨document.toSemanticDocument, List.mem_map.mpr ⟨document, hdocument, rfl⟩, contract, ⟨htype, hstatus, ?_, ?_⟩, hparse, rfl⟩
    · rintro ids' ⟨⟩
      exact hkept
    · rw [hparse]
      exact Option.some_ne_none contract

/-! ## The planned metric -/

/-- A plan is of the one metric that the planner detects. -/
theorem planned_metric {p : DeterministicQueryPlanProvider} {question : String} {context : ContextBundle} {plan : QueryPlan}
    (h : (P.plannerOn p release).propose question context = .ok plan) :
    ∃ candidate, detectMetricCandidates P.forms P.parsers.parse (P.plannerQuestion question) release.toSemanticRelease
        (some context.assetIds) = [candidate] ∧ plan.metricKeys = [candidate.assetId] := by
  unfold DeterministicQueryPlanProvider.propose at h
  simp only [bind_eq_ok, PlannerAux.orRefuse_eq_ok] at h
  obtain ⟨proposal, hparsed, resolved, -, hplan⟩ := h
  obtain ⟨-, hparts⟩ := PlannerAux.buildPlan_eq_ok.mp hplan
  obtain ⟨-, -, hkeys, -⟩ := PlannerAux.of?_eq_some.mp hparts
  rw [PlannerAux.bindAvailableDates_candidate] at hkeys
  unfold DeterministicQueryPlanProvider.parseQuestion EvidencePolicy.plannerOn at hparsed
  simp only at hparsed
  split at hparsed
  · nomatch hparsed
  · split at hparsed
    · nomatch hparsed
    · rename_i candidate hdetect
      rw [PlannerAux.parseProposal_candidate hparsed] at hkeys
      exact ⟨candidate, hdetect, hkeys⟩
    · nomatch hparsed

end AmbiguityAux

open AmbiguityAux

/-- `SOURCE_WEIGHT` over `RRF_K` and the rank, as fractions. -/
def sourceWeight (source : EvidenceSource) (rank : Nat) : ℚ :=
  (match source with
    | .lexical => 30
    | .vector => 45
    | .graph => 25) / (100 * (60 + rank))

/-- The metrics of the plan that a policy, a planner and a release give a question. -/
def plannedMetrics (P : EvidencePolicy) (p : DeterministicQueryPlanProvider) (route : RouteName) (question : String)
    (release : ActiveRelease) : Option (List String) :=
  (P.resolve sourceWeight route question (some release)).toOption.bind fun context =>
    ((P.plannerOn p release).propose question context).toOption.map fun plan => plan.metricKeys

theorem AmbiguityAux.exists_plan {P : EvidencePolicy} {p : DeterministicQueryPlanProvider} {route : RouteName} {question : String}
    {release : ActiveRelease} {keys : List String} (h : plannedMetrics P p route question release = some keys) :
    ∃ context plan, P.resolve sourceWeight route question (some release) = .ok context ∧
      (P.plannerOn p release).propose question context = .ok plan ∧ plan.metricKeys = keys := by
  unfold plannedMetrics at h
  obtain ⟨context, hcontext, h⟩ := Option.bind_eq_some_iff.mp h
  obtain ⟨plan, hplan, hkeys⟩ := Option.map_eq_some_iff.mp h
  refine ⟨context, plan, ?_, ?_, hkeys⟩
  · cases hresolved : P.resolve sourceWeight route question (some release) with
    | error e => rw [hresolved] at hcontext; nomatch hcontext
    | ok context' => rw [hresolved] at hcontext; exact congrArg _ (Option.some.inj hcontext)
  · cases hproposed : (P.plannerOn p release).propose question context with
    | error e => rw [hproposed] at hplan; nomatch hplan
    | ok plan' => rw [hproposed] at hplan; exact congrArg _ (Option.some.inj hplan)

/-- The five metrics are shown under one name, and each has a source of its own. -/
def tiedPolicy : EvidencePolicy where
  forms := plainForms
  parsers := ⟨fun raw =>
    if h : isIdentifier raw = true ∧ isContractId raw = true then
      some { complaintCount with metricKey := ⟨raw, h.1⟩, sourceRef := ⟨raw, h.2⟩, displayName := "n", name_non_empty := by decide }
    else none, fun _ => none⟩
  relationAssetIds := Dict.ofList [("a", "r.a"), ("b", "r.b"), ("c", "r.c"), ("d", "r.d"), ("e", "r.e")]
  permittedAssetIds := none
  identity := ⟨["*"]⟩

/-- The document of the relation of a source. -/
def tiedRelation (source : String) : RegistryDocument :=
  { complaintsDocument with documentId := "r." ++ source }

def tiedRelease : ActiveRelease :=
  countRelease
    [countDocument ⟨"a", Eq.refl true⟩ "active" "a", countDocument ⟨"b", Eq.refl true⟩ "active" "b",
      countDocument ⟨"c", by decide⟩ "active" "c", countDocument ⟨"d", by decide⟩ "active" "d",
      countDocument ⟨"e", by decide⟩ "active" "e", tiedRelation "a", tiedRelation "b", tiedRelation "c", tiedRelation "d",
      tiedRelation "e"] (by decide +kernel)

end Nl2Sql
