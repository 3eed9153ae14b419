import Nl2Sql.Lemmas.Materialize
import Nl2Sql.Semantic.Release
import Nl2Sql.Semantic.Validate

/-!
# Lemmas about validated sets and accepted candidates

What a report says that is ok: the only issues are the warnings about inferred metadata, and what would have been an error does not occur.
Then what a candidate is that the publisher accepts.
-/

namespace Nl2Sql.Authoring

open Py

namespace ReleaseAux

/-! ## Issues -/

/-- Issues none of which is a warning. -/
def AllErrors (issues : List AuthoringIssue) : Prop := ∀ issue ∈ issues, issue.severity = .error

theorem AllErrors.nil : AllErrors [] := fun _ h => absurd h List.not_mem_nil

theorem AllErrors.append {issues others : List AuthoringIssue} (h : AllErrors issues) (h' : AllErrors others) : AllErrors (issues ++ others) :=
  fun issue hissue => (List.mem_append.mp hissue).elim (h issue) (h' issue)

theorem AllErrors.singleton {issue : AuthoringIssue} (h : issue.severity = .error) : AllErrors [issue] :=
  fun _ hother => List.mem_singleton.mp hother ▸ h

theorem AllErrors.failIf {c : Prop} [Decidable c] {issue : AuthoringIssue} (h : issue.severity = .error) : AllErrors (failIf c issue) :=
  fun _ hother => (mem_failIf.mp hother).2 ▸ h

theorem AllErrors.flatMap {α : Type} {f : α → List AuthoringIssue} (h : ∀ a, AllErrors (f a)) (values : List α) :
    AllErrors (values.flatMap f) := by
  intro issue hissue
  obtain ⟨a, -, ha⟩ := List.mem_flatMap.mp hissue
  exact h a issue ha

theorem AllErrors.map {α : Type} {f : α → AuthoringIssue} (h : ∀ a, (f a).severity = .error) (values : List α) : AllErrors (values.map f) := by
  intro issue hissue
  obtain ⟨a, -, rfl⟩ := List.mem_map.mp hissue
  exact h a

theorem AllErrors.ite {c : Prop} [Decidable c] {issues others : List AuthoringIssue} (h : AllErrors issues) (h' : AllErrors others) :
    AllErrors (if c then issues else others) := by
  split
  · exact h
  · exact h'

section Found

variable (T : AuthoringTools) (catalog : RelationCatalog)

theorem schemaVersionIssues_errors (ir : AuthoringIR) : AllErrors (schemaVersionIssues ir) :=
  (AllErrors.failIf rfl).append (.flatMap (fun _ => .failIf rfl) _)

theorem metricIssues_errors (metric : MetricAsset) : AllErrors (metricIssues T catalog metric) := by
  have hsource : AllErrors (sourceIssues T catalog metric) :=
    (AllErrors.ite (.singleton rfl) (.failIf rfl)).append (.flatMap (fun _ => .failIf rfl) _)
  have hderived : AllErrors (derivedIssues metric) :=
    (((((((AllErrors.failIf rfl).append (.failIf rfl)).append (.failIf rfl)).append (.failIf rfl)).append (.failIf rfl)).append
      (.failIf rfl)).append (.failIf rfl)).append (.failIf rfl)
  exact .ite (.singleton rfl) (.ite .nil (((AllErrors.failIf rfl).append hsource).append (.ite hderived .nil)))

theorem referenceIssues_errors (view : ViewAsset) (aliases : List String) (unknownAlias unknownColumn path : String) (ref : String × String) :
    AllErrors (referenceIssues T catalog view aliases unknownAlias unknownColumn path ref) := .ite (.singleton rfl) (.failIf rfl)

theorem joinsIssues_errors (view : ViewAsset) (aliases : List String) (joins : List JoinDefinition) :
    AllErrors (joinsIssues T catalog view aliases joins).1 := by
  induction joins generalizing aliases with
  | nil => exact .nil
  | cons join joins ih =>
    have hjoin : AllErrors (joinIssues T catalog view aliases join).1 :=
      (((((AllErrors.failIf rfl).append (.failIf rfl)).append (.failIf rfl)).append (.failIf rfl)).append (.failIf rfl)).append
        (.flatMap (referenceIssues_errors T catalog view _ _ _ _) _)
    exact hjoin.append (ih _)

theorem viewIssues_errors (view : ViewAsset) : AllErrors (viewIssues T catalog view) := by
  have hcolumn (aliases : List String) (expression : String) : AllErrors (columnIssues T catalog view aliases expression) :=
    (AllErrors.failIf rfl).append (.flatMap (referenceIssues_errors T catalog view _ _ _ _) _)
  exact .ite .nil (((((AllErrors.failIf rfl).append (.failIf rfl)).append (.failIf rfl)).append
    (joinsIssues_errors T catalog view _ _)).append (.flatMap (hcolumn _) _))

theorem questionIssues_errors (qa : QAAsset) : AllErrors (questionIssues T catalog qa) := by
  have hcatalog (parsed : ParsedQuery) : AllErrors (validateQueryCatalog T parsed qa.assetId catalog) :=
    (AllErrors.flatMap (fun _ => .failIf rfl) _).append (.flatMap (fun _ => .failIf rfl) _)
  have hpreflight : AllErrors (preflightIssues T qa) := by
    unfold preflightIssues
    split
    · exact .nil
    · exact .singleton rfl
  refine .ite .nil ((AllErrors.failIf rfl).append (.ite (.singleton rfl) ?_))
  split
  · exact .singleton rfl
  · exact hpreflight.append (hcatalog _)

theorem validateDependencyGraph_errors (metrics : List MetricAsset) : AllErrors (validateDependencyGraph metrics) :=
  (AllErrors.flatMap (fun _ => .ite .nil (.flatMap (fun _ => .failIf rfl) _)) _).append (.map (fun _ => rfl) _)

theorem checkAlias_errors (metric : MetricAsset) (key : String) {s : SeenNames} (hs : AllErrors s.issues) (name : String) :
    AllErrors (checkAlias T metric key s name).issues := by
  unfold checkAlias
  simp only
  split
  · exact hs
  · generalize (if (s.aliases.get? (T.forms.normalize name)).getD "" = "" then (s.keys.get? (T.forms.normalize name)).getD ""
      else (s.aliases.get? (T.forms.normalize name)).getD "") = previous
    split
    · exact hs.append (.singleton rfl)
    · exact hs

theorem checkKey_errors (metric : MetricAsset) (key : String) {s : SeenNames} (hs : AllErrors s.issues) :
    AllErrors (checkKey metric key s).issues := by
  unfold checkKey
  split
  · exact hs
  · split
    · exact hs.append (.singleton rfl)
    · exact hs

theorem duplicateMetricIssues_errors (metrics : List MetricAsset) : AllErrors (duplicateMetricIssues T metrics) := by
  have haliases (metric : MetricAsset) (key : String) (names : List String) :
      ∀ s : SeenNames, AllErrors s.issues → AllErrors (names.foldl (checkAlias T metric key) s).issues := by
    induction names with
    | nil => exact fun _ hs => hs
    | cons name names ih => exact fun s hs => ih _ (checkAlias_errors T metric key hs name)
  have hall (s : SeenNames) (hs : AllErrors s.issues) : AllErrors (metrics.foldl (checkNames T) s).issues := by
    induction metrics generalizing s with
    | nil => exact hs
    | cons metric metrics ih => exact ih _ (haliases metric _ _ _ (checkKey_errors metric _ hs))
  exact hall {} .nil

end Found

/-- The warning about an asset with inferred metadata. -/
def inferredIssue (assetId : String) : AuthoringIssue where
  code := "legacy_metadata_inferred"
  message := "owner/sensitivity/freshness were inferred for a legacy asset; fill the v3 template before release"
  assetId := assetId
  path := "metadata"
  severity := .warning

theorem mem_assetMetadataIssues {asset : AuthoringAsset} {issue : AuthoringIssue} (h : issue ∈ assetMetadataIssues asset) :
    issue.severity = .error ∨ issue = inferredIssue asset.assetId := by
  unfold assetMetadataIssues at h
  split at h
  · exact absurd h List.not_mem_nil
  · simp only [List.mem_append, mem_failIf] at h
    rcases h with ((⟨-, rfl⟩ | ⟨-, rfl⟩) | ⟨-, rfl⟩) | ⟨-, rfl⟩
    · exact .inl rfl
    · exact .inl rfl
    · exact .inl rfl
    · exact .inr rfl

/-- An issue is an error, or the warning about the metadata of an asset. -/
theorem mem_foundIssues {T : AuthoringTools} {external : List (String × List String)} {ir : AuthoringIR} {issue : AuthoringIssue}
    (h : issue ∈ foundIssues T external ir) : issue.severity = .error ∨ ∃ asset ∈ ir.assets, issue = inferredIssue asset.assetId := by
  unfold foundIssues at h
  simp only [List.mem_append] at h
  rcases h with (((((h | h) | h) | h) | h) | h) | h
  · exact .inl (schemaVersionIssues_errors ir issue h)
  · exact .inl (duplicateMetricIssues_errors T ir.metrics issue h)
  · obtain ⟨asset, hasset, h⟩ := List.mem_flatMap.mp h
    exact (mem_assetMetadataIssues h).imp_right fun h => ⟨asset, hasset, h⟩
  · exact .inl (AllErrors.flatMap (metricIssues_errors T _) _ issue h)
  · exact .inl (AllErrors.flatMap (viewIssues_errors T _) _ issue h)
  · exact .inl (AllErrors.flatMap (questionIssues_errors T _) _ issue h)
  · exact .inl (validateDependencyGraph_errors ir.metrics issue h)

/-! ## Reports that are ok -/

section Ok

variable {T : AuthoringTools} {external : List (String × List String)} {ir : AuthoringIR}

theorem ok_iff : (validateAuthoringIR T external ir).ok = true ↔ ∀ issue ∈ foundIssues T external ir, issue.severity ≠ .error := by
  unfold ValidationReport.ok validateAuthoringIR sortIssues
  simp only [Bool.not_eq_eq_eq_not, Bool.not_true, List.any_eq_false, mem_sortBy, decide_eq_true_eq]

variable (hok : (validateAuthoringIR T external ir).ok = true)

include hok

/-- The issues of such a report are warnings about the metadata of its assets. -/
theorem issue_of_ok {issue : AuthoringIssue} (h : issue ∈ (validateAuthoringIR T external ir).issues) :
    ∃ asset ∈ ir.assets, issue = inferredIssue asset.assetId := by
  have hfound : issue ∈ foundIssues T external ir := mem_sortBy.mp h
  exact (mem_foundIssues hfound).resolve_left (ok_iff.mp hok issue hfound)

/-- What consists of errors is empty. -/
theorem eq_nil_of_errors {issues : List AuthoringIssue} (hsub : issues ⊆ foundIssues T external ir) (herrors : AllErrors issues) :
    issues = [] :=
  List.eq_nil_iff_forall_not_mem.mpr fun issue hissue => ok_iff.mp hok issue (hsub hissue) (herrors issue hissue)

theorem schemaVersion_of_ok : ir.schemaVersion = 3 := by
  have hsub : schemaVersionIssues ir ⊆ foundIssues T external ir := by
    intro issue hissue
    unfold foundIssues
    simp only [List.mem_append, hissue, true_or]
  have hnil := eq_nil_of_errors hok hsub (schemaVersionIssues_errors ir)
  unfold schemaVersionIssues at hnil
  simp only [List.append_eq_nil_iff, failIf_eq_nil_iff, not_not] at hnil
  exact hnil.1

theorem dependencies_of_ok : validateDependencyGraph ir.metrics = [] := by
  refine eq_nil_of_errors hok (fun issue hissue => ?_) (validateDependencyGraph_errors ir.metrics)
  unfold foundIssues
  exact List.mem_append_right _ hissue

/-- Every metric has a key. -/
theorem metricKey_ne_of_ok {metric : MetricAsset} (hmetric : metric ∈ ir.metrics) : metric.metricKey ≠ "" := by
  intro hkey
  have hsub : metricIssues T ((buildRelationCatalog T ir.views).withExternalColumns T.forms external) metric ⊆
      foundIssues T external ir := by
    intro issue hissue
    have hin := List.mem_flatMap_of_mem hmetric hissue
    unfold foundIssues validateMetrics
    simp only [List.mem_append]
    exact .inl (.inl (.inl (.inr hin)))
  have hnil := eq_nil_of_errors hok hsub (metricIssues_errors T _ metric)
  unfold metricIssues at hnil
  rw [if_pos hkey] at hnil
  exact List.cons_ne_nil _ _ hnil

/-- The dependencies of an active metric are keys of metrics. -/
theorem dependency_of_ok {metric : MetricAsset} (hmetric : metric ∈ ir.metrics) (hactive : metric.status = .active) {key : String}
    (hkey : key ∈ metric.dependencies) : key ∈ ir.metrics.map MetricAsset.metricKey := by
  have hnil := dependencies_of_ok hok
  unfold validateDependencyGraph at hnil
  have hunknown := List.flatMap_eq_nil_iff.mp (List.append_eq_nil_iff.mp hnil).1 metric hmetric
  unfold unknownDependencies at hunknown
  rw [if_neg (by simp [metricKey_ne_of_ok hok hmetric, hactive])] at hunknown
  have hin := List.flatMap_eq_nil_iff.mp hunknown key ((mem_fromKeys _ _).mpr hkey)
  rw [failIf_eq_nil_iff, not_not] at hin
  exact (List.mem_filter.mp hin).1

theorem assetStatuses_of_ok (hids : (ir.assets.map AuthoringAsset.assetId).Nodup) {asset : AuthoringAsset} (hasset : asset ∈ ir.assets) :
    (validateAuthoringIR T external ir).assetStatuses.get? asset.assetId = some asset.status := by
  have hnone : errorAssetIds (validateAuthoringIR T external ir).issues = [] := by
    have herrors : (validateAuthoringIR T external ir).issues.filter (fun issue => issue.severity = .error) = [] := by
      refine List.filter_eq_nil_iff.mpr fun issue hissue => ?_
      obtain ⟨other, -, rfl⟩ := issue_of_ok hok hissue
      exact fun h => nomatch (show IssueSeverity.warning = .error from of_decide_eq_true h)
    unfold errorAssetIds
    rw [herrors]
    rfl
  unfold validateAuthoringIR at hnone ⊢
  simp only at hnone ⊢
  rw [hnone]
  refine Dict.get?_ofList_of_mem ?_ (List.mem_map.mpr ⟨asset, hasset, ?_⟩)
  · rw [List.map_map]
    exact hids
  · rw [if_neg List.not_mem_nil]

/-- An active metric does not depend on itself. -/
theorem dependency_ne_of_ok (hids : (ir.assets.map AuthoringAsset.assetId).Nodup) {metric dependency : MetricAsset}
    (hmetric : metric ∈ ir.metrics) (hactive : metric.status = .active) {key : String} (hkey : key ∈ metric.dependencies)
    (hget : ir.metricsByKey.get? key = some dependency) : dependency.assetId ≠ metric.assetId := by
  intro hsame
  have hmem : dependency ∈ ir.metrics := by
    obtain ⟨other, hother, heq⟩ := List.mem_map.mp (Dict.mem_of_get?_ofList hget)
    exact (Prod.mk.inj heq).2 ▸ hother
  obtain rfl : dependency = metric := by
    have hinj := List.inj_on_of_nodup_map hids (List.mem_append_left _ (List.mem_append_left _ (List.mem_map_of_mem hmem)))
      (List.mem_append_left _ (List.mem_append_left _ (List.mem_map_of_mem hmetric))) hsame
    exact AuthoringAsset.metric.inj hinj
  -- the metric is the last of its key, so the graph has its dependencies
  obtain ⟨before, after, hsplit, hafter⟩ := Dict.get?_ofList_eq_some_iff.mp hget
  obtain ⟨first, rest, hmetrics, -, hrest⟩ := List.map_eq_append_iff.mp hsplit
  obtain ⟨other, last, rfl, heq, rfl⟩ := List.map_eq_cons_iff.mp hrest
  obtain ⟨hdependency, rfl⟩ := Prod.mk.inj heq
  have hgraph : (dependencyGraph ir.metrics).get? key = some (fromKeys other.dependencies) := by
    unfold dependencyGraph
    rw [hmetrics, List.filter_append, List.filter_cons_of_pos, List.map_append, List.map_cons, hdependency]
    · refine Dict.get?_ofList_eq_some_iff.mpr ⟨_, _, rfl, fun hin => hafter ?_⟩
      rw [List.map_map] at hin ⊢
      obtain ⟨metric, hfilter, hmetric⟩ := List.mem_map.mp hin
      exact List.mem_map.mpr ⟨metric, (List.mem_filter.mp hfilter).1, hmetric⟩
    · exact decide_eq_true ⟨metricKey_ne_of_ok hok hmem, hactive⟩
  have hnil := dependencies_of_ok hok
  unfold validateDependencyGraph at hnil
  have hcycles := List.map_eq_nil_iff.mp (List.append_eq_nil_iff.mp hnil).2
  refine Search.visitAll_self ?_ hgraph ((mem_fromKeys _ _).mpr hkey) hcycles
  unfold sortedStr
  rw [List.mem_insertionSort, ← Dict.get?_isSome_iff, hgraph]
  rfl

end Ok

/-! ## Candidates that are accepted -/

theorem rejectIf_eq_ok {c : Prop} [Decidable c] {message : String} {u : Unit} : rejectIf c message = .ok u ↔ ¬c := by
  unfold rejectIf
  by_cases h : c
  · rw [if_pos h]
    exact ⟨fun h' => (nomatch h'), fun h' => absurd h h'⟩
  · rw [if_neg h]
    exact ⟨fun _ => h, fun _ => rfl⟩

/-- The checks of a candidate, one after another. -/
theorem validateReleaseCandidate_eq_ok {integer : Json → Option Int} {candidate : SemanticReleaseCandidate} :
    validateReleaseCandidate integer candidate = .ok () ↔
      (candidate.validationReport.isOk = true ∧ isBlank candidate.checksum = false ∧ candidate.schemaVersion = 3 ∧
        isBlank candidate.parserVersion = false) ∧
      (checkBinding candidate = .ok () ∧ checkDocuments candidate.documents = .ok ()) ∧
      ((candidate.assets.map SemanticAssetRecord.assetId).Nodup ∧
        ∀ asset ∈ candidate.assets, checkAsset (candidate.documents.map fun document => document.documentId) asset = .ok ()) ∧
      (∃ last, candidate.aliases.foldlM (checkAliasRecord (candidate.assets.map SemanticAssetRecord.assetId)) [] = .ok last) ∧
      (∃ last, candidate.edges.foldlM (checkEdge (candidate.assets.map SemanticAssetRecord.assetId)) [] = .ok last) ∧
      (∀ issue ∈ candidate.validationIssues, checkIssue (candidate.assets.map SemanticAssetRecord.assetId) issue = .ok ()) ∧
      checkReport integer candidate = .ok () ∧ checkEmbedding candidate = .ok () := by
  unfold validateReleaseCandidate
  simp only [Py.bind_eq_ok, rejectIf_eq_ok, not_not, Bool.not_eq_false, Bool.not_eq_true, ne_eq, exists_const]
  constructor
  · rintro ⟨hreport, hchecksum, hversion, hparser, ⟨⟩, hbinding, ⟨⟩, hdocuments, hids, ⟨⟩, hassets, aliases, haliases, edges, hedges,
      ⟨⟩, hissues, ⟨⟩, hmembers, hembedding⟩
    exact ⟨⟨hreport, hchecksum, hversion, hparser⟩, ⟨hbinding, hdocuments⟩, ⟨hids, forM_eq_ok.mp hassets⟩, ⟨aliases, haliases⟩,
      ⟨edges, hedges⟩, forM_eq_ok.mp hissues, hmembers, hembedding⟩
  · rintro ⟨⟨hreport, hchecksum, hversion, hparser⟩, ⟨hbinding, hdocuments⟩, ⟨hids, hassets⟩, ⟨aliases, haliases⟩, ⟨edges, hedges⟩, hissues,
      hmembers, hembedding⟩
    exact ⟨hreport, hchecksum, hversion, hparser, (), hbinding, (), hdocuments, hids, (), forM_eq_ok.mpr hassets, aliases, haliases, edges,
      hedges, (), forM_eq_ok.mpr hissues, (), hmembers, hembedding⟩

theorem checkDocuments_eq_ok {documents : List RegistryDocument} :
    checkDocuments documents = .ok () ↔ documents ≠ [] ∧ (documents.map fun document => document.documentId).Nodup ∧
      ∀ document ∈ documents, isBlank document.documentId = false ∧ isBlank document.content = false := by
  unfold checkDocuments
  simp only [Py.bind_eq_ok, rejectIf_eq_ok, not_not, exists_const, not_exists, not_and, not_or, Bool.not_eq_true, ne_eq]

theorem checkAliasRecord_eq_ok {assetIds seen next : List String} {record : SemanticAliasRecord} :
    checkAliasRecord assetIds seen record = .ok next ↔
      (record.assetId ∈ assetIds ∧ isBlank record.text = false ∧ isBlank record.normalizedAlias = false) ∧
        record.normalizedAlias ∉ seen ∧ record.normalizedAlias :: seen = next := by
  unfold checkAliasRecord
  simp only [Py.bind_eq_ok, rejectIf_eq_ok, not_not, exists_const, not_or, Bool.not_eq_true]
  constructor
  · rintro ⟨hasset, ⟨htext, hnormalized⟩, hnew, hnext⟩
    exact ⟨⟨hasset, htext, hnormalized⟩, hnew, Except.ok.inj hnext⟩
  · rintro ⟨⟨hasset, htext, hnormalized⟩, hnew, rfl⟩
    exact ⟨hasset, ⟨htext, hnormalized⟩, hnew, rfl⟩

/-- An edge between two different assets of a release, of a type and a status that there are. -/
structure EdgePasses (assetIds : List String) (edge : SemanticEdgeRecord) : Prop where
  source : edge.sourceAssetId ∈ assetIds
  target : edge.targetAssetId ∈ assetIds
  ne : edge.sourceAssetId ≠ edge.targetAssetId
  type : edge.edgeType ∈ edgeTypes
  status : edge.status ∈ edgeStatuses

theorem checkEdge_eq_ok {assetIds seen next : List String} {edge : SemanticEdgeRecord} :
    checkEdge assetIds seen edge = .ok next ↔ EdgePasses assetIds edge ∧ edge.edgeId ∉ seen ∧ edge.edgeId :: seen = next := by
  unfold checkEdge
  simp only [Py.bind_eq_ok, rejectIf_eq_ok, not_not, exists_const, not_or]
  constructor
  · rintro ⟨hnew, ⟨hsource, htarget⟩, hne, htype, hstatus, hnext⟩
    exact ⟨⟨hsource, htarget, hne, htype, hstatus⟩, hnew, Except.ok.inj hnext⟩
  · rintro ⟨⟨hsource, htarget, hne, htype, hstatus⟩, hnew, rfl⟩
    exact ⟨hnew, ⟨hsource, htarget⟩, hne, htype, hstatus, rfl⟩

theorem checkAsset_eq_ok {documentIds : List String} {asset : SemanticAssetRecord} :
    checkAsset documentIds asset = .ok () ↔
      (∀ value ∈ [asset.assetId, asset.domain, asset.owner, asset.sensitivity, asset.content], isBlank value = false) ∧
        asset.assetType ∈ assetTypes ∧ asset.status ∈ assetStatuses ∧ asset.assetId ∈ documentIds := by
  unfold checkAsset
  simp only [Py.bind_eq_ok, rejectIf_eq_ok, not_not, exists_const, not_exists, not_and, Bool.not_eq_true]

theorem checkIssue_eq_ok {assetIds : List String} {issue : SemanticValidationIssueRecord} :
    checkIssue assetIds issue = .ok () ↔ (∀ assetId ∈ issue.assetId, assetId ∈ assetIds) ∧ issue.severity ∈ issueSeverities ∧
      isBlank issue.code = false ∧ isBlank issue.message = false ∧ isBlank issue.owner = false := by
  unfold checkIssue
  simp only [Py.bind_eq_ok, rejectIf_eq_ok, not_not, exists_const, not_exists, not_and, not_or, Bool.not_eq_true]

end ReleaseAux

end Nl2Sql.Authoring
