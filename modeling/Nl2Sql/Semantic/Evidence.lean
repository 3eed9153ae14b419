import Nl2Sql.Planner.Provider
import Nl2Sql.Semantic.Registry

/-!
# Evidence for a question

`semantic/policy_evidence.py`: which metrics of the active release an identity sees, and the evidence a question gets of them. A document
is a metric when its metadata says so; what it measures is the contract it carries, which two parsers read: the strict one decides what is
seen, and the matcher of `semantic/metric_match.py` falls back on a laxer one.
-/

namespace Nl2Sql

open Py

/-! ## The active release -/

/-- The active release, as `read_active` gives it: the identifiers are those of uuid columns, and a document id occurs once. -/
structure ActiveRelease where
  releaseId : Uuid
  version : Nat
  checksum : String
  schemaSnapshotId : Option Uuid
  schemaSnapshotChecksum : Option String
  documents : List RegistryDocument
  documents_unique : (documents.map fun document => document.documentId).Nodup

/-- The parts of the release that the planner and the compiler read. -/
def ActiveRelease.toSemanticRelease (release : ActiveRelease) : SemanticRelease where
  releaseId := release.releaseId.val
  state := .active
  documents := release.documents.map RegistryDocument.toSemanticDocument
  schemaSnapshotId := release.schemaSnapshotId.map Subtype.val
  schemaSnapshotChecksum := release.schemaSnapshotChecksum

/-- The two ways a metric contract is read: `model_validate_json`, and `model_validate` of what `json.loads` gives. -/
structure ContractParsers where
  validateJson : String → Option MetricContract
  validateLoaded : String → Option MetricContract

/-- The parser of `semantic/metric_match.py`: the second way is tried where the first fails. -/
def ContractParsers.parse (parsers : ContractParsers) (raw : String) : Option MetricContract :=
  (parsers.validateJson raw).orElse fun _ => parsers.validateLoaded raw

/-! ## Visibility -/

/-- `_is_permitted`: the allow-list, where there is one, has the asset. -/
def isPermitted (assetId : String) (permitted : Option (List String)) : Prop := ∀ ids ∈ permitted, assetId ∈ ids

instance (assetId : String) (permitted : Option (List String)) : Decidable (isPermitted assetId permitted) :=
  inferInstanceAs (Decidable (∀ ids ∈ permitted, assetId ∈ ids))

/-- What retrieval stands on: the Unicode forms, the contract parsers, the relation of each source, the allow-list and the identity. -/
structure EvidencePolicy where
  forms : UnicodeForms
  parsers : ContractParsers
  relationAssetIds : Dict String String
  permittedAssetIds : Option (List String)
  identity : RequestIdentity

namespace EvidencePolicy

variable (P : EvidencePolicy)

/-- `_metric_contract`. -/
def metricContract (document : RegistryDocument) : Option MetricContract :=
  contractOf? P.parsers.validateJson document.toSemanticDocument

/-- `_metric_visible`. -/
def metricVisible (document : RegistryDocument) : Prop :=
  document.metadata.get? "asset_type" = some "metric" ∧ document.metadata.get? "status" = some "active" ∧
    isPermitted document.documentId P.permittedAssetIds ∧
      ∃ contract ∈ P.metricContract document, P.identity.holds contract.requiredPermissions

instance (document : RegistryDocument) : Decidable (P.metricVisible document) :=
  inferInstanceAs (Decidable (_ ∧ _ ∧ _ ∧ ∃ contract ∈ _, _))

/-- The documents of `_visible_release`. -/
def visibleDocuments (release : ActiveRelease) : List RegistryDocument := release.documents.filter P.metricVisible

/-- `_visible_release`. -/
def visibleRelease (release : ActiveRelease) : SemanticRelease :=
  { release.toSemanticRelease with documents := (P.visibleDocuments release).map RegistryDocument.toSemanticDocument }

/-- The metrics a question selects among documents: `detect_metric_candidates` of `_visible_metric_documents`. -/
def matched (question : String) (release : ActiveRelease) : List MetricCandidate :=
  detectMetricCandidates P.forms P.parsers.parse question (P.visibleRelease release) P.permittedAssetIds

/-- The document a candidate was read from. -/
def candidateDocument (release : ActiveRelease) (candidate : MetricCandidate) : Option (RegistryDocument × MetricContract) :=
  ((P.visibleDocuments release).find? fun document => document.documentId = candidate.assetId).map fun document =>
    (document, candidate.contract)

/-- `_all_metric_pairs` of the visible release. -/
def allMetricPairs (release : ActiveRelease) : List (RegistryDocument × MetricContract) :=
  (P.visibleDocuments release).filterMap fun document => (P.metricContract document).map fun contract => (document, contract)

/-- `_visible_metric_documents`. -/
def visibleMetricDocuments (question : String) (release : ActiveRelease) : List (RegistryDocument × MetricContract) × Bool :=
  let matched := P.matched question release
  if matched ≠ [] then (matched.filterMap (P.candidateDocument release), true) else (P.allMetricPairs release, false)

end EvidencePolicy

/-! ## Evidence -/

inductive EvidenceSource where
  | lexical | vector | graph
  deriving DecidableEq, Repr

structure Evidence where
  evidenceId : String
  content : String
  source : EvidenceSource
  metadata : Dict String String

/-- Evidence that was filtered for the identity before retrieval. -/
structure PolicyScopedEvidence where
  lexical : List Evidence := []
  vector : Option (List Evidence) := none
  graph : List Evidence := []
  embeddingAvailable : Bool := false
  resolutionStatus : ResolutionStatus := .incomplete
  unresolvedSlots : List String := []
  conflictIds : List String := []
  degradationFlags : List String := []

/-- `_document`. -/
def ActiveRelease.document? (release : ActiveRelease) (documentId : String) : Option RegistryDocument :=
  release.documents.find? fun document => document.documentId = documentId

/-- `_relation_name`. -/
def relationName (document : RegistryDocument) : String :=
  let payload := strip ((document.metadata.get? "relation_name").getD "")
  if payload ≠ "" then payload
  else
    let content := strip document.content
    if startsWith "relation " content then strip (String.ofList (content.toList.drop 9)) else ""

/-- The evidence of a metric. -/
def metricEvidence (document : RegistryDocument) (contract : MetricContract) : Evidence where
  evidenceId := document.documentId
  content := document.content
  source := .lexical
  metadata := Dict.ofList [("asset_type", "metric"), ("domain", (document.metadata.get? "domain").getD contract.domain),
    ("metric_key", contract.metricKey.val)]

/-- The evidence of the relation of a metric. -/
def relationEvidence (document : RegistryDocument) (contract : MetricContract) (source : EvidenceSource) : Evidence where
  evidenceId := document.documentId
  content := document.content
  source := source
  metadata := Dict.ofList ([("asset_type", "relation"), ("domain", (document.metadata.get? "domain").getD contract.domain),
    ("relation_id", document.documentId), ("source_ref", contract.sourceRef.val)] ++
      failIf (relationName document ≠ "") ("relation_name", relationName document))

/-- The evidence so far, and the relations it has. -/
structure Gathered where
  lexical : List Evidence := []
  graph : List Evidence := []
  seenRelations : List String := []

namespace EvidencePolicy

variable (P : EvidencePolicy)

/-- The relation of a metric, where it may be returned and is not there yet. -/
def newRelation (release : ActiveRelease) (seen : List String) (contract : MetricContract) : Option RegistryDocument :=
  match P.relationAssetIds.get? contract.sourceRef.val with
  | none => none
  | some relationAssetId =>
    if relationAssetId ∈ seen ∨ ¬isPermitted relationAssetId P.permittedAssetIds then none else release.document? relationAssetId

/-- One metric of `retrieve_permitted`. -/
def gather (release : ActiveRelease) (gathered : Gathered) (pair : RegistryDocument × MetricContract) : Gathered :=
  let lexical := gathered.lexical ++ [metricEvidence pair.1 pair.2]
  match P.newRelation release gathered.seenRelations pair.2 with
  | none => { gathered with lexical := lexical }
  | some relation =>
    { lexical := lexical ++ [relationEvidence relation pair.2 .lexical]
      graph := gathered.graph ++ [relationEvidence relation pair.2 .graph]
      seenRelations := relation.documentId :: gathered.seenRelations }

/-- `retrieve_permitted`, of what `read_active` gives. -/
def retrievePermitted (question : String) : Option ActiveRelease → PolicyScopedEvidence
  | none => { unresolvedSlots := ["semantic_release"], degradationFlags := ["no_active_semantic_release"] }
  | some release =>
    let (candidates, questionMatched) := P.visibleMetricDocuments question release
    if candidates = [] then { unresolvedSlots := ["metric"], degradationFlags := ["metric_identity_missing"] }
    else
      let gathered := candidates.foldl (P.gather release) {}
      { lexical := gathered.lexical
        graph := gathered.graph
        resolutionStatus := .resolved
        degradationFlags := if questionMatched then [] else ["question_metric_unmatched"] }

end EvidencePolicy

/-! ## The context compiler -/

/-- The routes, with the tokens and the evidence each may take (`_BUDGETS`) and the relations (`_RELATION_LIMITS`). -/
def RouteName.evidenceBudget : RouteName → Nat × Nat
  | .fast => (2000, 6)
  | .standard => (6000, 12)
  | .deep => (10000, 20)

def RouteName.relationLimit : RouteName → Nat
  | .fast => 2
  | .standard => 5
  | .deep => 8

/-- `_estimate_tokens`. -/
def estimateTokens (content : String) : Nat := (content.length + 3) / 4

/-- `_unique_release_scoped`: the first evidence of each document of the release. -/
def uniqueReleaseScoped (releaseIds : List String) (items : List Evidence) : List Evidence :=
  items.foldl (fun kept item =>
    if item.evidenceId ∈ releaseIds ∧ item.evidenceId ∉ kept.map (·.evidenceId) then kept ++ [item] else kept) []

section Fusion

/-! The weight of a source over a rank and the sums of such weights are binary floats; any type of scores with an order stands for them. -/

variable {K : Type} [Zero K] [Add K] [LinearOrder K] (weight : EvidenceSource → Nat → K)

/-- One document of one source of `reciprocal_rank_fusion`: its rank adds to its score. -/
def addRank (source : EvidenceSource) (scores : Dict String K) (ranked : String × Nat) : Dict String K :=
  scores.set ranked.1 ((scores.get? ranked.1).getD 0 + weight source (ranked.2 + 1))

/-- `sorted(scores.items(), key=lambda item: (-item[1], item[0]))` puts the first before the second. -/
def scoreLe (a b : String × K) : Prop := b.2 < a.2 ∨ a.2 = b.2 ∧ a.1 ≤ b.1

instance (a b : String × K) : Decidable (scoreLe a b) := inferInstanceAs (Decidable (_ ∨ _ ∧ _))

/-- `reciprocal_rank_fusion`. -/
def reciprocalRankFusion (ranked : List (EvidenceSource × List String)) : List (String × K) :=
  (ranked.foldl (fun scores source => source.2.zipIdx.foldl (addRank weight source.1) scores) Dict.empty).entries.insertionSort scoreLe

/-- One step of the selection: an item that no longer fits is passed over. -/
def selectWithin (budget : Nat × Nat) (selected : List Evidence × Nat) (item : Evidence) : List Evidence × Nat :=
  if budget.2 ≤ selected.1.length ∨ budget.1 < selected.2 + estimateTokens item.content then selected
  else (selected.1 ++ [item], selected.2 + estimateTokens item.content)

/-- The sources of a compilation, in the order of the dictionary. -/
def evidenceSources (releaseIds : List String) (retrieved : PolicyScopedEvidence) : List (EvidenceSource × List Evidence) :=
  [(EvidenceSource.lexical, uniqueReleaseScoped releaseIds retrieved.lexical), (.graph, uniqueReleaseScoped releaseIds retrieved.graph)] ++
    match retrieved.vector with
    | some vector => if retrieved.embeddingAvailable then [(.vector, uniqueReleaseScoped releaseIds vector)] else []
    | none => []

/-- `lookup[evidence_id]`: the last evidence of the document, the sources in order. -/
def lookupEvidence (sources : List (EvidenceSource × List Evidence)) (evidenceId : String) : Option Evidence :=
  (sources.flatMap (·.2)).reverse.find? fun item => item.evidenceId = evidenceId

/-- The evidence `ContextCompiler.compile` selects, and its tokens. The confidence of the bundle is not read by any other function here. -/
def compileEvidence (route : RouteName) (releaseIds : List String) (retrieved : PolicyScopedEvidence) : List Evidence × Nat :=
  let sources := evidenceSources releaseIds retrieved
  let ranked := sources.map fun source => (source.1, source.2.map (·.evidenceId))
  ((reciprocalRankFusion weight ranked).filterMap fun scored => lookupEvidence sources scored.1).foldl
    (selectWithin route.evidenceBudget) ([], 0)

/-- `degradation_reasons` of a compilation. -/
def degradationReasons (retrieved : PolicyScopedEvidence) : List String :=
  failIf (retrieved.embeddingAvailable = false ∨ retrieved.vector.isNone) "embedding_unavailable"

/-! ## The resolver -/

/-- What the resolver may raise. -/
inductive ContextError where
  | compilation (code : String)
  | validationError
  deriving DecidableEq, Repr

/-- A value that is not blank, of a key of the metadata. -/
def Evidence.meta? (item : Evidence) (key : String) : Option String :=
  let value := strip ((item.metadata.get? key).getD "")
  if value ≠ "" then some value else none

/-- `_relation_id`. -/
def Evidence.relationId? (item : Evidence) : Option String :=
  (item.meta? "relation_id").orElse fun _ => if item.metadata.get? "asset_type" = some "relation" then some item.evidenceId else none

/-- `_edge_id`. -/
def Evidence.edgeId? (item : Evidence) : Option String :=
  (item.meta? "edge_id").orElse fun _ => if item.metadata.get? "asset_type" = some "join" then some item.evidenceId else none

/-- `sorted({... for item in evidence})`. -/
def sortedSet (values : List String) : List String := (fromKeys values).insertionSort (· ≤ ·)

/-- `ContextBundle(...)`: the bundle of its parts, if the model accepts them. -/
def ContextBundle.of? (semanticReleaseId schemaSnapshotId : Uuid)
    (domains assetIds approvedRelationIds approvedEdgeIds : List String) (resolutionStatus : ResolutionStatus)
    (unresolvedSlots conflictIds degradationFlags : List String) (tokenCost evidenceCount : Nat) : Option ContextBundle :=
  if h : ((1 ≤ domains.length ∧ domains.length ≤ 8) ∧ (1 ≤ assetIds.length ∧ assetIds.length ≤ 20) ∧ approvedRelationIds.length ≤ 8 ∧
        approvedEdgeIds.length ≤ 16 ∧ unresolvedSlots.length ≤ 16 ∧ conflictIds.length ≤ 16 ∧ degradationFlags.length ≤ 16) ∧
      tokenCost ≤ 10000 ∧ evidenceCount ≤ 20 ∧
      ∀ values ∈ [domains, assetIds, approvedRelationIds, approvedEdgeIds, unresolvedSlots, conflictIds, degradationFlags],
        validIdentifiers values then
    some
      { semanticReleaseId := semanticReleaseId, schemaSnapshotId := schemaSnapshotId, domains := domains, assetIds := assetIds,
        approvedRelationIds := approvedRelationIds, approvedEdgeIds := approvedEdgeIds, resolutionStatus := resolutionStatus,
        unresolvedSlots := unresolvedSlots, conflictIds := conflictIds, degradationFlags := degradationFlags, tokenCost := tokenCost,
        evidenceCount := evidenceCount, domains_length := h.1.1, assets_length := h.1.2.1, relations_length := h.1.2.2.1,
        edges_length := h.1.2.2.2.1, slots_length := h.1.2.2.2.2.1, conflicts_length := h.1.2.2.2.2.2.1,
        flags_length := h.1.2.2.2.2.2.2, cost_bound := h.2.1, evidence_bound := h.2.2.1, all_valid := h.2.2.2 }
  else none

/-- Values within a limit, and the flag that some were left out. -/
def within (limit : Nat) (flag : String) (values : List String) : List String × List String :=
  if limit < values.length then (values.take limit, [flag]) else (values, [])

/-- The status of a resolution: a slot left open makes it incomplete, and a conflict a conflict. -/
def resolvedStatus (retrieved : PolicyScopedEvidence) : ResolutionStatus :=
  if retrieved.conflictIds ≠ [] then .conflict
  else if retrieved.unresolvedSlots ≠ [] ∧ retrieved.resolutionStatus = .resolved then .incomplete
  else retrieved.resolutionStatus

/-- The bundle of the evidence that was selected. -/
def bundleOf (route : RouteName) (release : ActiveRelease) (snapshot : Uuid) (retrieved : PolicyScopedEvidence)
    (compiled : List Evidence × Nat) : Except ContextError ContextBundle :=
  let domains := sortedSet (compiled.1.filterMap (·.meta? "domain"))
  if domains = [] then .error (.compilation "semantic_context_domain_missing")
  else
    let (domains, domainFlags) := within 8 "context_domain_budget_applied" domains
    let (relations, relationFlags) :=
      within route.relationLimit "context_relation_budget_applied" (sortedSet (compiled.1.filterMap Evidence.relationId?))
    let (edges, edgeFlags) :=
      within route.relationLimit "context_edge_budget_applied" (sortedSet (compiled.1.filterMap Evidence.edgeId?))
    let degradation := fromKeys (retrieved.degradationFlags ++ degradationReasons retrieved) ++ domainFlags ++ relationFlags ++ edgeFlags
    match ContextBundle.of? release.releaseId snapshot domains (compiled.1.map (·.evidenceId)) relations edges (resolvedStatus retrieved)
      retrieved.unresolvedSlots retrieved.conflictIds (fromKeys degradation) compiled.2 compiled.1.length with
    | none => .error .validationError
    | some bundle => .ok bundle

/-- `SemanticContextResolver.resolve`, with the evidence of a policy. -/
def EvidencePolicy.resolve (P : EvidencePolicy) (route : RouteName) (question : String) (active : Option ActiveRelease) :
    Except ContextError ContextBundle :=
  let retrieved := P.retrievePermitted question active
  match active with
  | none => .error (.compilation "no_active_semantic_release")
  | some release =>
    let compiled := compileEvidence weight route (release.documents.map fun document => document.documentId) retrieved
    match release.schemaSnapshotId with
    | none => .error (.compilation "semantic_release_schema_snapshot_unbound")
    | some snapshot =>
      if compiled.1 = [] then .error (.compilation "semantic_context_empty") else bundleOf route release snapshot retrieved compiled

end Fusion

end Nl2Sql
