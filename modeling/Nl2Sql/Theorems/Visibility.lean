import Nl2Sql.Semantic.Evidence
import Nl2Sql.Theorems.Noninterference

/-!
# Metrics an identity does not see

The evidence for a question, the context resolved from it and the plan proposed on that context depend on a release only through the
documents that are no hidden metrics: two releases that agree on those answer alike.
-/

namespace Nl2Sql

open Py

namespace EvidencePolicy

/-- A metric document that the identity does not see. -/
def hidden (P : EvidencePolicy) (document : RegistryDocument) : Prop :=
  document.metadata.get? "asset_type" = some "metric" ∧ ¬P.metricVisible document

instance (P : EvidencePolicy) (document : RegistryDocument) : Decidable (P.hidden document) :=
  inferInstanceAs (Decidable (_ ∧ ¬_))

/-- The documents that are no hidden metrics. -/
def shown (P : EvidencePolicy) (release : ActiveRelease) : List RegistryDocument :=
  release.documents.filter fun document => ¬P.hidden document

/-- The relation of a source is a relation document of the release, where the release has it. -/
def MapsToRelations (P : EvidencePolicy) (release : ActiveRelease) : Prop :=
  ∀ relationAssetId ∈ P.relationAssetIds.values, ∀ document ∈ release.documents, document.documentId = relationAssetId →
    document.metadata.get? "asset_type" = some "relation"

/-- Two releases of one identity, version, checksum and snapshot that differ only in hidden metrics. -/
structure SameButHidden (P : EvidencePolicy) (A B : ActiveRelease) : Prop where
  releaseId : A.releaseId = B.releaseId
  version : A.version = B.version
  checksum : A.checksum = B.checksum
  schemaSnapshotId : A.schemaSnapshotId = B.schemaSnapshotId
  schemaSnapshotChecksum : A.schemaSnapshotChecksum = B.schemaSnapshotChecksum
  documents : P.shown A = P.shown B

end EvidencePolicy

namespace VisibilityAux

variable {P : EvidencePolicy} {A B release : ActiveRelease}

/-! ## What is shown -/

theorem mem_shown {document : RegistryDocument} : document ∈ P.shown release ↔ document ∈ release.documents ∧ ¬P.hidden document := by
  unfold EvidencePolicy.shown
  rw [List.mem_filter, decide_eq_true_eq]

/-- Documents with one id are one document. -/
theorem document_unique {d d' : RegistryDocument} (hd : d ∈ release.documents) (hd' : d' ∈ release.documents)
    (h : d.documentId = d'.documentId) : d = d' :=
  List.inj_on_of_nodup_map release.documents_unique hd hd' h

/-- What is seen is seen among the documents shown. -/
theorem visibleDocuments_eq : P.visibleDocuments release = (P.shown release).filter P.metricVisible := by
  unfold EvidencePolicy.visibleDocuments EvidencePolicy.shown
  rw [List.filter_filter]
  refine List.filter_congr fun document _ => ?_
  by_cases hvisible : P.metricVisible document
  · have hshown : ¬P.hidden document := fun h => h.2 hvisible
    simp only [hvisible, hshown, not_false_eq_true, decide_true, Bool.and_self]
  · simp only [hvisible, decide_false, Bool.false_and]

theorem visibleDocuments_same (h : P.shown A = P.shown B) : P.visibleDocuments A = P.visibleDocuments B := by
  rw [visibleDocuments_eq, visibleDocuments_eq, h]

/-- The id of a document that is not hidden is looked up among the documents shown. -/
theorem document?_eq {relationAssetId : String}
    (h : ∀ document ∈ release.documents, document.documentId = relationAssetId → ¬P.hidden document) :
    release.document? relationAssetId = (P.shown release).find? fun document => document.documentId = relationAssetId := by
  unfold ActiveRelease.document? EvidencePolicy.shown
  rw [List.find?_filter]
  revert h
  induction release.documents with
  | nil => exact fun _ => rfl
  | cons document documents ih =>
    intro h
    rw [List.find?_cons, List.find?_cons]
    by_cases hid : document.documentId = relationAssetId
    · have hshown := h document List.mem_cons_self hid
      simp only [hid, hshown, decide_true, not_false_eq_true, and_self]
    · simp only [hid, decide_false, and_false, Bool.false_eq_true]
      exact ih fun d hd => h d (List.mem_cons_of_mem _ hd)

/-! ## The evidence -/

theorem visibleRelease_same (h : P.SameButHidden A B) : P.visibleRelease A = P.visibleRelease B := by
  unfold EvidencePolicy.visibleRelease ActiveRelease.toSemanticRelease
  rw [visibleDocuments_same h.documents, h.releaseId, h.schemaSnapshotId, h.schemaSnapshotChecksum]

theorem visibleMetricDocuments_same (h : P.SameButHidden A B) (question : String) :
    P.visibleMetricDocuments question A = P.visibleMetricDocuments question B := by
  have hmatched : P.matched question A = P.matched question B := by
    unfold EvidencePolicy.matched
    rw [visibleRelease_same h]
  have hcandidate : P.candidateDocument A = P.candidateDocument B := by
    funext candidate
    unfold EvidencePolicy.candidateDocument
    rw [visibleDocuments_same h.documents]
  have hpairs : P.allMetricPairs A = P.allMetricPairs B := by
    unfold EvidencePolicy.allMetricPairs
    rw [visibleDocuments_same h.documents]
  unfold EvidencePolicy.visibleMetricDocuments
  rw [hmatched, hcandidate, hpairs]

/-- A document that a relation map leads to is shown. -/
theorem not_hidden_of_maps (h : P.MapsToRelations release) {source relationAssetId : String}
    (hmap : P.relationAssetIds.get? source = some relationAssetId) :
    ∀ document ∈ release.documents, document.documentId = relationAssetId → ¬P.hidden document := by
  intro document hdocument hid hhidden
  have hrelation := h relationAssetId (Dict.mem_values_iff.mpr ⟨source, hmap⟩) document hdocument hid
  rw [hhidden.1] at hrelation
  exact absurd (Option.some.inj hrelation) (by decide)

theorem newRelation_same (h : P.SameButHidden A B) (hA : P.MapsToRelations A) (hB : P.MapsToRelations B) (seen : List String)
    (contract : MetricContract) : P.newRelation A seen contract = P.newRelation B seen contract := by
  unfold EvidencePolicy.newRelation
  cases hmap : P.relationAssetIds.get? contract.sourceRef.val with
  | none => rfl
  | some relationAssetId =>
    simp only
    rw [document?_eq (not_hidden_of_maps hA hmap), document?_eq (not_hidden_of_maps hB hmap), h.documents]

theorem gather_same (h : P.SameButHidden A B) (hA : P.MapsToRelations A) (hB : P.MapsToRelations B) : P.gather A = P.gather B := by
  funext gathered pair
  unfold EvidencePolicy.gather
  rw [newRelation_same h hA hB]

theorem retrievePermitted_same (h : P.SameButHidden A B) (hA : P.MapsToRelations A) (hB : P.MapsToRelations B) (question : String) :
    P.retrievePermitted question (some A) = P.retrievePermitted question (some B) := by
  unfold EvidencePolicy.retrievePermitted
  simp only [visibleMetricDocuments_same h, gather_same h hA hB]

/-! ## Every piece of evidence is of a document shown -/

/-- The evidence is of documents shown. -/
def OfShown (P : EvidencePolicy) (release : ActiveRelease) (items : List Evidence) : Prop :=
  ∀ item ∈ items, ∃ document ∈ P.shown release, item.evidenceId = document.documentId

theorem OfShown.append {items items' : List Evidence} (h : OfShown P release items) (h' : OfShown P release items') :
    OfShown P release (items ++ items') := fun item hitem => (List.mem_append.mp hitem).elim (h item) (h' item)

theorem ofShown_singleton {item : Evidence} {document : RegistryDocument} (hdocument : document ∈ P.shown release)
    (h : item.evidenceId = document.documentId) : OfShown P release [item] := by
  intro other hother
  rw [List.mem_singleton.mp hother]
  exact ⟨document, hdocument, h⟩

theorem shown_of_visible {document : RegistryDocument} (h : document ∈ P.visibleDocuments release) : document ∈ P.shown release := by
  rw [visibleDocuments_eq] at h
  exact (List.mem_filter.mp h).1

theorem candidates_visible {question : String} {pair : RegistryDocument × MetricContract}
    (h : pair ∈ (P.visibleMetricDocuments question release).1) : pair.1 ∈ P.visibleDocuments release := by
  unfold EvidencePolicy.visibleMetricDocuments at h
  simp only at h
  split at h
  · obtain ⟨candidate, -, hcandidate⟩ := List.mem_filterMap.mp h
    unfold EvidencePolicy.candidateDocument at hcandidate
    obtain ⟨document, hfind, rfl⟩ := Option.map_eq_some_iff.mp hcandidate
    exact List.mem_of_find?_eq_some hfind
  · unfold EvidencePolicy.allMetricPairs at h
    obtain ⟨document, hdocument, hpair⟩ := List.mem_filterMap.mp h
    obtain ⟨contract, -, rfl⟩ := Option.map_eq_some_iff.mp hpair
    exact hdocument

theorem newRelation_shown (hmaps : P.MapsToRelations release) {seen : List String} {contract : MetricContract}
    {relation : RegistryDocument} (h : P.newRelation release seen contract = some relation) : relation ∈ P.shown release := by
  unfold EvidencePolicy.newRelation at h
  cases hmap : P.relationAssetIds.get? contract.sourceRef.val with
  | none =>
    rw [hmap] at h
    nomatch h
  | some relationAssetId =>
    rw [hmap] at h
    simp only at h
    split at h
    · nomatch h
    · rw [document?_eq (not_hidden_of_maps hmaps hmap)] at h
      exact List.mem_of_find?_eq_some h

theorem gather_shown (hmaps : P.MapsToRelations release) {gathered : Gathered} {pair : RegistryDocument × MetricContract}
    (hpair : pair.1 ∈ P.shown release) (h : OfShown P release gathered.lexical ∧ OfShown P release gathered.graph) :
    OfShown P release (P.gather release gathered pair).lexical ∧ OfShown P release (P.gather release gathered pair).graph := by
  have hmetric : OfShown P release [metricEvidence pair.1 pair.2] := ofShown_singleton hpair rfl
  unfold EvidencePolicy.gather
  simp only
  split
  · exact ⟨h.1.append hmetric, h.2⟩
  · rename_i relation hrelation
    have hshown := newRelation_shown hmaps hrelation
    exact ⟨(h.1.append hmetric).append (ofShown_singleton hshown rfl), h.2.append (ofShown_singleton hshown rfl)⟩

theorem foldl_gather_shown (hmaps : P.MapsToRelations release) (pairs : List (RegistryDocument × MetricContract))
    (hpairs : ∀ pair ∈ pairs, pair.1 ∈ P.shown release) (gathered : Gathered)
    (h : OfShown P release gathered.lexical ∧ OfShown P release gathered.graph) :
    OfShown P release (pairs.foldl (P.gather release) gathered).lexical ∧
      OfShown P release (pairs.foldl (P.gather release) gathered).graph := by
  induction pairs generalizing gathered with
  | nil => exact h
  | cons pair pairs ih =>
    rw [List.foldl_cons]
    exact ih (fun p hp => hpairs p (List.mem_cons_of_mem _ hp)) _ (gather_shown hmaps (hpairs pair List.mem_cons_self) h)

/-- Retrieval gives evidence of documents shown, and no vectors. -/
theorem retrieved_shown (hmaps : P.MapsToRelations release) (question : String) :
    OfShown P release (P.retrievePermitted question (some release)).lexical ∧
      OfShown P release (P.retrievePermitted question (some release)).graph ∧
      (P.retrievePermitted question (some release)).vector = none := by
  unfold EvidencePolicy.retrievePermitted
  simp only
  split
  · exact ⟨nofun, nofun, rfl⟩
  · have h := foldl_gather_shown hmaps (P.visibleMetricDocuments question release).1
      (fun pair hpair => shown_of_visible (candidates_visible hpair)) {} ⟨nofun, nofun⟩
    dsimp only
    exact ⟨h.1, h.2, rfl⟩

/-! ## The context -/

theorem uniqueReleaseScoped_congr {ids ids' : List String} (items : List Evidence)
    (h : ∀ item ∈ items, item.evidenceId ∈ ids ↔ item.evidenceId ∈ ids') :
    uniqueReleaseScoped ids items = uniqueReleaseScoped ids' items := by
  unfold uniqueReleaseScoped
  refine List.foldl_ext _ _ _ fun kept item hitem => ?_
  simp only [h item hitem]

/-- Evidence of documents shown is in the scope of both releases. -/
theorem scope_same (h : P.shown A = P.shown B) {items : List Evidence} (hitems : OfShown P A items) :
    ∀ item ∈ items, item.evidenceId ∈ A.documents.map (fun document => document.documentId) ↔
      item.evidenceId ∈ B.documents.map (fun document => document.documentId) := by
  intro item hitem
  obtain ⟨document, hdocument, hid⟩ := hitems item hitem
  have hA := (mem_shown.mp hdocument).1
  have hB := (mem_shown.mp (h ▸ hdocument)).1
  rw [hid]
  exact iff_of_true (List.mem_map.mpr ⟨document, hA, rfl⟩) (List.mem_map.mpr ⟨document, hB, rfl⟩)

variable {K : Type} [Zero K] [Add K] [LinearOrder K] {weight : EvidenceSource → Nat → K}

theorem compileEvidence_same (h : P.shown A = P.shown B) {retrieved : PolicyScopedEvidence} (hlexical : OfShown P A retrieved.lexical)
    (hgraph : OfShown P A retrieved.graph) (hvector : retrieved.vector = none) (route : RouteName) :
    compileEvidence weight route (A.documents.map fun document => document.documentId) retrieved =
      compileEvidence weight route (B.documents.map fun document => document.documentId) retrieved := by
  unfold compileEvidence evidenceSources
  rw [hvector, uniqueReleaseScoped_congr _ (scope_same h hlexical), uniqueReleaseScoped_congr _ (scope_same h hgraph)]

theorem resolve_same (h : P.SameButHidden A B) (hA : P.MapsToRelations A) (hB : P.MapsToRelations B) (route : RouteName)
    (question : String) : P.resolve weight route question (some A) = P.resolve weight route question (some B) := by
  obtain ⟨hlexical, hgraph, hvector⟩ := retrieved_shown hA question
  unfold EvidencePolicy.resolve
  simp only
  rw [compileEvidence_same h.documents hlexical hgraph hvector route, retrievePermitted_same h hA hB, h.schemaSnapshotId]
  unfold bundleOf
  rw [h.releaseId]

/-! ## The evidence that a context has -/

theorem mem_uniqueReleaseScoped {ids : List String} {items : List Evidence} {item : Evidence}
    (h : item ∈ uniqueReleaseScoped ids items) : item ∈ items := by
  have hfold : ∀ (rest kept : List Evidence),
      item ∈ rest.foldl (fun kept item => if item.evidenceId ∈ ids ∧ item.evidenceId ∉ kept.map (·.evidenceId) then kept ++ [item] else kept)
        kept → item ∈ kept ∨ item ∈ rest := by
    intro rest
    induction rest with
    | nil => exact fun kept h => .inl h
    | cons next rest ih =>
      intro kept h
      rw [List.foldl_cons] at h
      rcases ih _ h with h | h
      · split at h
        · rcases List.mem_append.mp h with h | h
          · exact .inl h
          · exact .inr (List.mem_singleton.mp h ▸ List.mem_cons_self)
        · exact .inl h
      · exact .inr (List.mem_cons_of_mem _ h)
  exact (hfold items [] h).resolve_left List.not_mem_nil

theorem mem_selectWithin {budget : Nat × Nat} {item : Evidence} (items : List Evidence) (selected : List Evidence × Nat)
    (h : item ∈ (items.foldl (selectWithin budget) selected).1) : item ∈ selected.1 ∨ item ∈ items := by
  induction items generalizing selected with
  | nil => exact .inl h
  | cons next items ih =>
    rw [List.foldl_cons] at h
    rcases ih _ h with h | h
    · unfold selectWithin at h
      split at h
      · exact .inl h
      · rcases List.mem_append.mp h with h | h
        · exact .inl h
        · exact .inr (List.mem_singleton.mp h ▸ List.mem_cons_self)
    · exact .inr (List.mem_cons_of_mem _ h)

/-- What is selected was retrieved. -/
theorem mem_compileEvidence {route : RouteName} {ids : List String} {retrieved : PolicyScopedEvidence} (hvector : retrieved.vector = none)
    {item : Evidence} (h : item ∈ (compileEvidence weight route ids retrieved).1) :
    item ∈ retrieved.lexical ∨ item ∈ retrieved.graph := by
  unfold compileEvidence at h
  have hmem := (mem_selectWithin _ _ h).resolve_left List.not_mem_nil
  obtain ⟨scored, -, hlookup⟩ := List.mem_filterMap.mp hmem
  unfold lookupEvidence at hlookup
  have hsource := List.mem_reverse.mp (List.mem_of_find?_eq_some hlookup)
  obtain ⟨source, hsource, hitem⟩ := List.mem_flatMap.mp hsource
  unfold evidenceSources at hsource
  rw [hvector, List.append_nil] at hsource
  rcases List.mem_cons.mp hsource with rfl | hsource
  · exact .inl (mem_uniqueReleaseScoped hitem)
  · rw [List.mem_singleton.mp hsource] at hitem
    exact .inr (mem_uniqueReleaseScoped hitem)

theorem of?_eq_some {semanticReleaseId schemaSnapshotId : Uuid} {domains assetIds relations edges slots conflicts flags : List String}
    {status : ResolutionStatus} {tokens count : Nat} {bundle : ContextBundle}
    (h : ContextBundle.of? semanticReleaseId schemaSnapshotId domains assetIds relations edges status slots conflicts flags tokens count =
      some bundle) : bundle.semanticReleaseId = semanticReleaseId ∧ bundle.assetIds = assetIds := by
  unfold ContextBundle.of? at h
  split at h
  · obtain rfl := Option.some.inj h
    exact ⟨rfl, rfl⟩
  · nomatch h

theorem bundleOf_eq_ok {route : RouteName} {snapshot : Uuid} {retrieved : PolicyScopedEvidence} {compiled : List Evidence × Nat}
    {bundle : ContextBundle} (h : bundleOf route release snapshot retrieved compiled = .ok bundle) :
    bundle.semanticReleaseId = release.releaseId ∧ bundle.assetIds = compiled.1.map (·.evidenceId) := by
  unfold bundleOf at h
  simp only at h
  split at h
  · nomatch h
  · split at h
    · nomatch h
    · rename_i hbundle
      cases h
      exact of?_eq_some hbundle

/-- A context that is resolved is of the release, and its assets are the evidence selected. -/
theorem resolve_eq_ok {route : RouteName} {question : String} {context : ContextBundle}
    (h : P.resolve weight route question (some release) = .ok context) :
    context.semanticReleaseId = release.releaseId ∧
      context.assetIds = (compileEvidence weight route (release.documents.map fun document => document.documentId)
        (P.retrievePermitted question (some release))).1.map (·.evidenceId) := by
  unfold EvidencePolicy.resolve at h
  simp only at h
  split at h
  · nomatch h
  · split at h
    · nomatch h
    · exact bundleOf_eq_ok h

/-- Every asset of a context is a document shown. -/
theorem assets_shown (hmaps : P.MapsToRelations release) {route : RouteName} {question : String} {context : ContextBundle}
    (h : P.resolve weight route question (some release) = .ok context) :
    ∀ assetId ∈ context.assetIds, ∃ document ∈ P.shown release, assetId = document.documentId := by
  intro assetId hasset
  rw [(resolve_eq_ok h).2] at hasset
  obtain ⟨item, hitem, rfl⟩ := List.mem_map.mp hasset
  obtain ⟨hlexical, hgraph, hvector⟩ := retrieved_shown hmaps question
  rcases mem_compileEvidence hvector hitem with hitem | hitem
  · exact hlexical item hitem
  · exact hgraph item hitem

/-! ## The plan -/

/-- A document whose id is not allowed is no candidate. -/
theorem addCandidate_of_not_mem {parse : String → Option MetricContract} {ids : List String} {document : SemanticDocument}
    (h : document.documentId ∉ ids) (candidates : List MetricCandidate) :
    addCandidate parse (some ids) candidates document = candidates :=
  if_pos (.inr (.inr (.inl ⟨ids, rfl, h⟩)))

theorem foldl_addCandidate_shown {parse : String → Option MetricContract} {ids : List String} (documents : List RegistryDocument)
    (h : ∀ document ∈ documents, P.hidden document → document.documentId ∉ ids) (candidates : List MetricCandidate) :
    (documents.map RegistryDocument.toSemanticDocument).foldl (addCandidate parse (some ids)) candidates =
      ((documents.filter fun document => ¬P.hidden document).map RegistryDocument.toSemanticDocument).foldl
        (addCandidate parse (some ids)) candidates := by
  induction documents generalizing candidates with
  | nil => rfl
  | cons document documents ih =>
    have hrest := fun d hd => h d (List.mem_cons_of_mem _ hd)
    by_cases hhidden : P.hidden document
    · rw [List.filter_cons_of_neg (by simpa using hhidden), List.map_cons, List.foldl_cons,
        addCandidate_of_not_mem (h document List.mem_cons_self hhidden)]
      exact ih hrest candidates
    · rw [List.filter_cons_of_pos (by simpa using hhidden), List.map_cons, List.map_cons, List.foldl_cons, List.foldl_cons]
      exact ih hrest _

/-- The candidates of a context are found among the documents shown. -/
theorem releaseCandidates_shown {parse : String → Option MetricContract} {ids : List String}
    (h : ∀ assetId ∈ ids, ∃ document ∈ P.shown release, assetId = document.documentId) :
    releaseCandidates parse release.toSemanticRelease (some ids) =
      (((P.shown release).map RegistryDocument.toSemanticDocument).foldl (addCandidate parse (some ids)) []).insertionSort
        fun a b => a.assetId ≤ b.assetId := by
  have hnot : ∀ document ∈ release.documents, P.hidden document → document.documentId ∉ ids := by
    intro document hdocument hhidden hmem
    obtain ⟨other, hother, hid⟩ := h _ hmem
    have hsame := document_unique hdocument (mem_shown.mp hother).1 hid
    exact (mem_shown.mp (hsame ▸ hother)).2 hhidden
  unfold releaseCandidates ActiveRelease.toSemanticRelease
  exact congrArg _ (foldl_addCandidate_shown release.documents hnot [])

theorem parseQuestion_same (h : P.SameButHidden A B) (hA : P.MapsToRelations A) (hB : P.MapsToRelations B)
    (p : DeterministicQueryPlanProvider) {route : RouteName} {question : String} {context : ContextBundle}
    (hcontext : P.resolve weight route question (some A) = .ok context) (asked : String) :
    { p with activeRelease := .release A.toSemanticRelease }.parseQuestion asked context =
      { p with activeRelease := .release B.toSemanticRelease }.parseQuestion asked context := by
  have hcandidates : releaseCandidates p.parseContract A.toSemanticRelease (some context.assetIds) =
      releaseCandidates p.parseContract B.toSemanticRelease (some context.assetIds) := by
    have hcontext' := (resolve_same h hA hB route question).symm.trans hcontext
    rw [releaseCandidates_shown (assets_shown hA hcontext), releaseCandidates_shown (assets_shown hB hcontext'), h.documents]
  have hid : A.toSemanticRelease.releaseId = B.toSemanticRelease.releaseId := congrArg Subtype.val h.releaseId
  unfold DeterministicQueryPlanProvider.parseQuestion detectMetricCandidates
  simp only [hcandidates, hid]

end VisibilityAux

open VisibilityAux

/-- Hidden metrics are silent: two active releases of one identity, version, checksum and snapshot that differ only in metric documents
the identity does not see give every question the same evidence, the same context or error, and on that context the same plan or error. -/
theorem invisible_metrics_silent {K : Type} [Zero K] [Add K] [LinearOrder K] (weight : EvidenceSource → Nat → K) (P : EvidencePolicy)
    (p : DeterministicQueryPlanProvider) {A B : ActiveRelease} (hsame : P.SameButHidden A B) (hA : P.MapsToRelations A)
    (hB : P.MapsToRelations B) (route : RouteName) (question : String) :
    P.retrievePermitted question (some A) = P.retrievePermitted question (some B) ∧
      P.resolve weight route question (some A) = P.resolve weight route question (some B) ∧
      ∀ context, P.resolve weight route question (some A) = .ok context → ∀ asked,
        { p with activeRelease := .release A.toSemanticRelease }.propose asked context =
          { p with activeRelease := .release B.toSemanticRelease }.propose asked context := by
  refine ⟨retrievePermitted_same hsame hA hB question, resolve_same hsame hA hB route question, fun context hcontext asked => ?_⟩
  unfold DeterministicQueryPlanProvider.propose
  rw [parseQuestion_same hsame hA hB p hcontext asked]
  rfl

/-! ## A release with one metric more -/

/-- The complaint count under another key. -/
def keyedCount (key : Identifier) : MetricContract := { complaintCount with metricKey := key }

/-- The document of a metric. -/
def countDocument (key : Identifier) (status content : String) : RegistryDocument where
  documentId := "metric." ++ key.val
  metadata := Dict.ofList [("asset_type", "metric"), ("status", status), ("execution_contract", key.val)]
  content := content
  embedding := none

def complaintsDocument : RegistryDocument where
  documentId := "relation.complaints"
  metadata := Dict.ofList [("asset_type", "relation"), ("status", "active")]
  content := "relation complaints"
  embedding := none

/-- Everyone sees the metrics of every key that is an identifier. -/
def countPolicy : EvidencePolicy where
  forms := plainForms
  parsers := ⟨fun raw => if h : isIdentifier raw = true then some (keyedCount ⟨raw, h⟩) else none, fun _ => none⟩
  relationAssetIds := Dict.ofList [("complaints", "relation.complaints")]
  permittedAssetIds := none
  identity := ⟨["*"]⟩

def countRelease (documents : List RegistryDocument) (h : (documents.map fun document => document.documentId).Nodup) : ActiveRelease where
  releaseId := ⟨"00000000-0000-0000-0000-000000000001", by decide +kernel⟩
  version := 1
  checksum := "c"
  schemaSnapshotId := some ⟨"00000000-0000-0000-0000-000000000002", by decide +kernel⟩
  schemaSnapshotChecksum := some "s"
  documents := documents
  documents_unique := h

def oneMetric : ActiveRelease := countRelease [countDocument ⟨"a", Eq.refl true⟩ "active" "a", complaintsDocument] (by decide +kernel)

def oneRetired : ActiveRelease :=
  countRelease [countDocument ⟨"a", Eq.refl true⟩ "active" "a", complaintsDocument, countDocument ⟨"b", Eq.refl true⟩ "retired" "b"]
    (by decide +kernel)

/-- A planner that reads the same contracts. -/
def countPlanner : DeterministicQueryPlanProvider where
  forms := plainForms
  parseContract := countPolicy.parsers.parse
  activeRelease := .notBound
  clock := .date askedOn
  availabilityWindow := none
  authoritativeDate := none

/-- A retired metric is hidden, and changes nothing. -/
theorem invisible_metrics_silent_retired : countPolicy.hidden (countDocument ⟨"b", by decide⟩ "retired" "b") ∧
    countPolicy.metricVisible (countDocument ⟨"a", by decide⟩ "active" "a") ∧
    countPolicy.resolve (fun _ rank => (rank : ℚ)) .fast "a" (some oneMetric) =
      countPolicy.resolve (fun _ rank => (rank : ℚ)) .fast "a" (some oneRetired) := by
  have hhidden : countPolicy.hidden (countDocument ⟨"b", by decide⟩ "retired" "b") := by decide +kernel
  have hvisible : countPolicy.metricVisible (countDocument ⟨"a", by decide⟩ "active" "a") := by decide +kernel
  have hrelation : ¬countPolicy.hidden complaintsDocument := by decide +kernel
  have hmaps : ∀ release ∈ [oneMetric, oneRetired], countPolicy.MapsToRelations release := by
    unfold EvidencePolicy.MapsToRelations
    decide +kernel
  have hsame : countPolicy.SameButHidden oneMetric oneRetired := by
    refine ⟨rfl, rfl, rfl, rfl, rfl, ?_⟩
    unfold EvidencePolicy.shown oneMetric oneRetired countRelease
    simp only [List.filter_cons, List.filter_nil, hhidden, hrelation, not_true_eq_false, not_false_eq_true, decide_true, decide_false,
      if_true, if_false, Bool.false_eq_true]
  exact ⟨hhidden, hvisible, (invisible_metrics_silent _ countPolicy countPlanner hsame (hmaps _ List.mem_cons_self)
    (hmaps _ (List.mem_cons_of_mem _ List.mem_cons_self)) .fast "a").2.1⟩

end Nl2Sql
